/-
ServerGroups/Proofs/Confinement/Rule.lean

The discipline under which regions stay confined, its rules for requests that
move nothing, and what a look at the owned tables finds out.

An operation that starts or goes on finds a calm world, and at every request
the world is confined.  Most requests are `quiet`: in a sane world they are
answered, and the world only settles.  What a program may still rely on after
a quiet request is what it knew, so a proof about a program follows the others
and passes over these.

Design.  That a change of the registry is warranted is known already, from the
discipline of asking for no other, so what an operation has checked is not
followed here a second time.
-/
import ServerGroups.Proofs.Confinement.Calm
import ServerGroups.Proofs.Inquiries
import ServerGroups.Proofs.Schedule.Discipline
import ServerGroups.Proofs.Warranted

namespace ServerGroups

open Program World

/-! ### Quiet requests -/

/-- A call that changes neither the registry nor what is assigned, except by taking regions away. -/
def Call.quiet : Call → Bool
  | .place _ => false
  | c => !c.writes

/-- A request that moves nothing. -/
def Request.quiet : Request → Bool
  | .call c => c.quiet
  | .note _ | .reservations => true
  | _ => false

theorem Request.not_pauses_of_quiet {q : Request} (hq : q.quiet = true) : q.pauses = false := by
  cases q <;> first | rfl | cases hq

namespace World

variable {free : TableName → Prop} {w w' : World} {c : Call}

/-- A quiet call is answered in a sane world. -/
theorem Sane.serve_ok (h : w.Sane free) (hc : c.quiet = true) :
    ∃ answer, (w.site.serve c).answer = .ok answer := by
  cases c with
  | unassign r =>
    simp only [Site.serve, Cluster.unassign, h.failing, Bool.false_eq_true, if_false]
    split
    · exact ⟨_, rfl⟩
    · next he => split at he <;> cases he
  | hook hook =>
    obtain ⟨o, ho, -⟩ := h.willing.hear hook
    exact ⟨(), by simp only [Site.serve, ho]⟩
  | plan snapshot => exact ⟨snapshot.plan?, by simp only [Site.serve, Site.plan, h.script]⟩
  | addGroup | removeGroup | moveServers | moveTables | place => cases hc
  | _ => exact ⟨_, rfl⟩

/-- A quiet call lets a sane world settle. -/
theorem Sane.settles_of_serve (h : w.Sane free) (hc : c.quiet = true) (ha : w.Alike w')
    (hs : w'.site = (w.site.serve c).site) (hf : w'.faults = []) : w.Settles w' := by
  have hsame : w'.site = w.site → w.Settles w' := fun he => .of_site ha (fun _ => hf) he
  cases c with
  | unassign r =>
    simp only [Site.serve] at hs
    split at hs
    · next ignored cluster hun =>
      obtain ⟨hregions, hfailing, hassign, htrans, hpins, -⟩ := Cluster.unassign_eq_ok hun
      refine ⟨ha, ?_, ?_, fun _ => hf, ?_, ?_, ?_, ?_, ?_, ?_⟩
      all_goals rw [hs]
      · exact hregions
      · exact hfailing
      · exact id
      · exact id
      · exact fun x s hx => .inl (hassign x s hx)
      · exact htrans
      · exact hpins
    · exact hsame hs
  | hook hook =>
    obtain ⟨o, ho, hwilling⟩ := h.willing.hear hook
    simp only [Site.serve, ho] at hs
    apply Settles.of_cluster ha (fun _ => hf)
    all_goals rw [hs]
    · exact id
    · exact fun _ => hwilling
  | plan snapshot =>
    simp only [Site.serve, Site.plan, h.script] at hs
    apply Settles.of_cluster ha (fun _ => hf)
    all_goals rw [hs]
    · exact fun _ => rfl
    · exact id
  | addGroup | removeGroup | moveServers | moveTables | place => cases hc
  | _ => exact hsame hs

/-- A quiet request is answered in a sane world, which settles. -/
theorem Sane.meet_quiet (h : w.Sane free) {q : Request} (hq : q.quiet = true)
    {reply : Reply q.Answer} (hm : w.meet q = (reply, w')) :
    w.Settles w' ∧ ∃ answer, reply = .answered answer := by
  cases q with
  | call c =>
    obtain ⟨answer, ha⟩ := h.serve_ok hq
    obtain ⟨hf, hreply⟩ := reply_of_no_faults h.faults hm
    obtain rfl := hreply answer ha
    exact ⟨h.settles_of_serve hq (alike_call hm) (answered_call hm).2 hf, answer, rfl⟩
  | note n =>
    obtain ⟨rfl, rfl⟩ := Prod.mk.inj hm
    exact ⟨settles_report w n, (), rfl⟩
  | reservations =>
    obtain ⟨rfl, rfl⟩ := Prod.mk.inj hm
    exact ⟨.refl w, _, rfl⟩
  | lock | unlock | reserve | launch | join => cases hq

end World

/-! ### Views -/

/-- The same activity later, in a world that has settled. -/
structure View.Settles (v v' : View) : Prop where
  world : v.world.Settles v'.world
  owed : v'.owed = v.owed
  others : v'.others = v.others

/-- A view in which every request is safe. -/
structure View.Fine (free : TableName → Prop) (v : View) : Prop where
  sane : v.world.Sane free
  confined : v.world.Confined (v.others ∪ v.owed)

/-- A view in which an activity may wait. -/
def View.Steady (free : TableName → Prop) (v : View) : Prop :=
  v.world.Calm free (v.others ∪ v.owed)

/-- A view in which an activity may start or end: it owes nothing, and the world is calm. -/
structure View.Ready (free : TableName → Prop) (v : View) : Prop where
  owed : v.owed = ∅
  calm : v.world.Calm free v.others

namespace View

variable {free : TableName → Prop} {v v' v'' : View}

theorem Settles.refl (v : View) : v.Settles v := ⟨.refl _, rfl, rfl⟩

theorem Settles.trans (h : v.Settles v') (h' : v'.Settles v'') : v.Settles v'' :=
  ⟨h.world.trans h'.world, h'.owed.trans h.owed, h'.others.trans h.others⟩

theorem Settles.fine (h : v.Settles v') (hv : v.Fine free) : v'.Fine free := by
  refine ⟨h.world.sane hv.sane, ?_⟩
  rw [h.owed, h.others]
  exact h.world.confined hv.confined

theorem Settles.steady (h : v.Settles v') (hv : v.Steady free) : v'.Steady free := by
  unfold Steady
  rw [h.owed, h.others]
  exact h.world.calm hv

theorem Settles.ready (h : v.Settles v') (hv : v.Ready free) : v'.Ready free := by
  refine ⟨h.owed.trans hv.owed, ?_⟩
  rw [h.others]
  exact h.world.calm hv.calm

theorem Steady.fine (h : v.Steady free) : v.Fine free := ⟨World.Calm.sane h, World.Calm.confined h⟩

theorem ready_iff : v.Ready free ↔ v.owed = ∅ ∧ v.Steady free := by
  constructor
  · intro h
    refine ⟨h.owed, ?_⟩
    unfold Steady
    rw [h.owed, Set.union_empty]
    exact h.calm
  · rintro ⟨howed, h⟩
    unfold Steady at h
    rw [howed, Set.union_empty] at h
    exact ⟨howed, h⟩

theorem Ready.steady (h : v.Ready free) : v.Steady free := (ready_iff.1 h).2

theorem Ready.fine (h : v.Ready free) : v.Fine free := h.steady.fine

theorem Ready.of_steady (h : v.Ready free) (howed : v'.owed = v.owed) (hv' : v'.Steady free) :
    v'.Ready free :=
  ready_iff.2 ⟨howed.trans h.owed, hv'⟩

end View

/-! ### The discipline -/

/-- What happens outside are assignments of regions to servers of their groups. -/
def Setting.Pipelined (E : Setting) : Prop := ∀ {w w' : World}, E.outside w w' → w.Assigns w'

/-- What holds when an agent's program has ended.  Drains and their last programs do not fail; a
pass has cleared the servers that it does not call busy. -/
def Rested (free : TableName → Prop) : (a : Agent) → Progress a.Result → View → Prop
  | .operation _, _, v => v.Ready free
  | .pass number m, .returned busy, v => v.Ready free ∧ v.world.Running number m ∧
      (∀ s ∈ busy, s ∈ m.pending) ∧ ∀ s ∈ m.pending, s ∉ busy → ∀ r,
        v.world.site.cluster.On r s → v.world.site.registry.Hosts s r.table
  | .finish number m, .returned (), v => v.Ready free ∧ v.world.Running number m ∧ m.pending = []
  | _, _, _ => False

/-- Regions stay on the servers of their groups. -/
def confining (free : TableName → Prop) : Discipline where
  calm := World.Calm free
  given q v := ∀ c, q = .call c → v.world.site.registry.Warranted c
  safe _ v := v.world.Confined (v.others ∪ v.owed)
  closed := Rested free

/-! ### Rules for quiet requests -/

section Rules

variable {E : Setting} (hE : E.Pipelined) {free : TableName → Prop} {a : Agent} {v : View}

include hE

theorem Setting.Pipelined.drifts {w w' : World} (h : E.Drifts w w') : w.Settles w' := by
  induction h with
  | refl => exact .refl _
  | outside _ ho ih => exact ih.trans (hE ho).settles
  | ticks _ time ih => exact ih.trans (settles_advance _ time)

/-- A request that does not wait is met in the same world, but for what has settled. -/
theorem meets_settles {q : Request} (hq : q.pauses = false) {v' : View}
    (h : (confining free).Meets E q v v') : v.Settles v' := by
  have hm := h.2
  rw [if_neg (by simp [hq])] at hm
  exact ⟨hE.drifts hm.2, h.1, hm.1⟩

/-- A request that does not wait is safe, so a program may make it if it can go on with whatever
comes of it. -/
theorem ensures_met {q : Request} {post : q.Answer → View → Prop} (hq : q.pauses = false)
    (hv : v.Fine free)
    (h : ∀ v', v.Settles v' → (confining free).given q v' →
      (∀ answer w, v'.world.meet q = (.answered answer, w) →
        post answer ⟨w, q.owed answer v'.owed, v'.others⟩) ∧
      (∀ cause w, v'.world.meet q = (.failed cause, w) →
        Rested free a (.failed cause) ⟨w, v'.owed, v'.others⟩) ∧
      (∀ w, v'.world.meet q = (.crashed, w) → Rested free a .crashed ⟨w, v'.owed, v'.others⟩)) :
    (ask q done).Ensures ((confining free).rule E a) post v := by
  refine ⟨fun hpauses => absurd hpauses (by simp [hq]), fun v' hmeets hgiven => ?_⟩
  have hsettles := meets_settles hE hq hmeets
  exact ⟨(hsettles.fine hv).confined, h v' hsettles hgiven⟩

/-- A call that the services answer leads on. -/
theorem ensures_served {c : Call} {post : c.Answer → View → Prop} (hv : v.Fine free)
    (hok : ∀ w, v.world.Settles w → w.site.registry.Warranted c →
      ∃ answer, (w.site.serve c).answer = .ok answer)
    (h : ∀ w answer w', v.world.Settles w → w.site.registry.Warranted c →
      w.meet (.call c) = (.answered answer, w') → w'.faults = [] →
      post answer ⟨w', Request.owed (.call c) answer v.owed, v.others⟩) :
    (call c).Ensures ((confining free).rule E a) post v := by
  refine ensures_met hE rfl hv fun v' hsettles hgiven => ?_
  have hsane := (hsettles.fine hv).sane
  have hwarranted : v'.world.site.registry.Warranted c := hgiven c rfl
  obtain ⟨expected, hexpected⟩ := hok v'.world hsettles.world hwarranted
  refine ⟨fun answer w hm => ?_, fun cause w hm => ?_, fun w hm => ?_⟩
  · rw [hsettles.owed, hsettles.others]
    have hfaults := (reply_of_no_faults hsane.faults hm).1
    exact h v'.world answer w hsettles.world hwarranted hm hfaults
  · have hreply := (reply_of_no_faults hsane.faults hm).2 expected hexpected
    cases hreply
  · have hreply := (reply_of_no_faults hsane.faults hm).2 expected hexpected
    cases hreply

/-- After a quiet request a program goes on in a world that has settled. -/
theorem ensures_quiet {q : Request} {post : q.Answer → View → Prop} (hq : q.quiet = true)
    (hv : v.Fine free)
    (h : ∀ w answer w', v.world.Settles w → w.Settles w' → w.meet q = (.answered answer, w') →
      post answer ⟨w', q.owed answer v.owed, v.others⟩) :
    (ask q done).Ensures ((confining free).rule E a) post v := by
  refine ensures_met hE (q.not_pauses_of_quiet hq) hv fun v' hsettles _ => ?_
  have hsane := (hsettles.fine hv).sane
  refine ⟨fun answer w' hm => ?_, fun cause w' hm => ?_, fun w' hm => ?_⟩
  · rw [hsettles.owed, hsettles.others]
    exact h v'.world answer w' hsettles.world (hsane.meet_quiet hq hm).1 hm
  · obtain ⟨-, answer, he⟩ := hsane.meet_quiet hq hm
    cases he
  · obtain ⟨-, answer, he⟩ := hsane.meet_quiet hq hm
    cases he

/-- After a quiet request that pays no debt nothing is different. -/
theorem ensures_settled {q : Request} {post : q.Answer → View → Prop} (hq : q.quiet = true)
    (hv : v.Fine free) (howed : ∀ answer, q.owed answer v.owed = v.owed)
    (h : ∀ answer v', v.Settles v' → post answer v') :
    (ask q done).Ensures ((confining free).rule E a) post v :=
  ensures_quiet hE hq hv fun _ answer _ hw hw' _ =>
    h answer _ ⟨hw.trans hw', howed answer, rfl⟩

theorem ensures_settled_note {n : Notice} {post : Unit → View → Prop} (hv : v.Fine free)
    (h : ∀ v', v.Settles v' → post () v') :
    (note n).Ensures ((confining free).rule E a) post v :=
  ensures_settled hE rfl hv (fun _ => rfl) fun _ => h

theorem ensures_settled_hook {k : Hook} {post : Unit → View → Prop} (hv : v.Fine free)
    (h : ∀ v', v.Settles v' → post () v') :
    (hook k).Ensures ((confining free).rule E a) post v :=
  ensures_settled hE rfl hv (fun _ => rfl) fun _ => h

/-- After a look at the services a program goes on with what they hold. -/
theorem ensures_look {c : Call} {post : c.Answer → View → Prop} (hq : c.quiet = true)
    (hv : v.Fine free) (hlook : ∀ site : Site, (site.serve c).site = site)
    (howed : ∀ answer, Request.owed (.call c) answer v.owed = v.owed)
    (h : ∀ answer v', v.Settles v' → (v'.world.site.serve c).answer = .ok answer →
      post answer v') :
    (call c).Ensures ((confining free).rule E a) post v := by
  refine ensures_quiet hE hq hv fun w answer w' hw hw' hm => ?_
  obtain ⟨ha, hsite⟩ := answered_call hm
  refine h answer _ ⟨hw.trans hw', howed answer, rfl⟩ ?_
  rw [hsite, hlook, ha]

/-! ### Owned tables -/

open Coordinator

/-- What a group is found to own it owns. -/
theorem ensures_owns {g : Group} (hg : v.world.site.registry.groups[g.name]? = some g)
    (hv : v.Fine free) (t : TableName) :
    (owns g t).Ensures ((confining free).rule E a)
      (fun found v' => v.Settles v' ∧
        (found = true → v.world.site.registry.Owns g.name t)) v := by
  unfold owns
  split
  · next ht => exact ⟨.refl v, fun _ => .inl ⟨g, hg, Std.ExtTreeSet.contains_iff_mem.1 ht⟩⟩
  · split
    · next hdefault =>
      rw [ensures_bind]
      refine ensures_look hE rfl hv (fun _ => rfl) (fun _ => rfl) fun answer v' hsettles ha => ?_
      refine ⟨hsettles, fun hfound => .inr ⟨by simpa [Group.isDefault] using hdefault, ?_⟩⟩
      have hanswer : v'.world.site.registry.groupOfTable? t = answer := Except.ok.inj ha
      rw [hsettles.world.registry, Option.isNone_iff_eq_none.1 hfound] at hanswer
      exact Registry.groupOfTable?_eq_none.1 hanswer
    · exact ⟨.refl v, fun hfound => by cases hfound⟩

theorem ensures_ownedAmong {g : Group} {tables : List TableName}
    (hg : v.world.site.registry.groups[g.name]? = some g) (hv : v.Fine free) :
    (ownedAmong g tables).Ensures ((confining free).rule E a)
      (fun found v' => v.Settles v' ∧ ∀ t ∈ found, v.world.site.registry.Owns g.name t) v := by
  refine loop_ownedAmong Discipline.rule_monotone v.Settles (fun t v₁ hv₁ => ?_) tables (.refl v)
  have hreg := hv₁.world.registry
  refine (ensures_owns hE (by rw [hreg]; exact hg) (hv₁.fine hv) t).mono
    Discipline.rule_monotone ?_
  rintro found v₂ ⟨hv₂, hfound⟩
  rw [hreg] at hfound
  exact ⟨hv₁.trans hv₂, hfound⟩

end Rules

end ServerGroups
