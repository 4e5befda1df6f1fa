/-
ServerGroups/Proofs/Confinement/Orderly.lean

Operations that end as ready as they started.

A program is `Orderly` if, called in a ready view, it keeps to the discipline
and ends in a ready view.  Looking up, adding and removing groups are; the
rules for waiting, for holding a lock and for changing the registry are here,
and the other operations are put together from them elsewhere.

Design.  An operation that holds the membership lock is `Alone`: no drain runs
until it lets go of it.  So a change of the registry that is made then has to
account only for the homes of regions.
-/
import ServerGroups.Proofs.Confinement.Moves
import ServerGroups.Proofs.Confinement.Rule
import ServerGroups.Proofs.Guarded
import ServerGroups.Proofs.Inquiries

namespace ServerGroups

open Program World

/-! ### Locks, waits and reservations -/

namespace World

variable {w w' : World}

/-- A lock that is asked for is granted or waited for. -/
theorem meet_lock {lock : Lock} {reply : Reply Unit}
    (h : w.meet (.lock lock false .operation) = (reply, w')) :
    (reply = .waiting ∧ w' = w) ∨ (reply = .answered () ∧ w.locks.isFree lock false = true ∧
      w' = { w with locks := w.locks.grant ⟨lock, false, .operation⟩ }) := by
  simp only [meet] at h
  split at h
  · next hfree =>
    obtain ⟨rfl, rfl⟩ := Prod.mk.inj h
    exact .inr ⟨rfl, hfree, rfl⟩
  · obtain ⟨rfl, rfl⟩ := Prod.mk.inj h
    exact .inl ⟨rfl, rfl⟩

/-- The end of a drain is told or waited for. -/
theorem meet_join {number : Nat} {reply : Reply Ending}
    (h : w.meet (.join number) = (reply, w')) :
    w' = w ∧ (reply = .waiting ∨ ∃ ending, reply = .answered ending) := by
  simp only [meet] at h
  split at h
  · split at h
    · obtain ⟨rfl, rfl⟩ := Prod.mk.inj h
      exact ⟨rfl, .inr ⟨_, rfl⟩⟩
    · obtain ⟨rfl, rfl⟩ := Prod.mk.inj h
      exact ⟨rfl, .inl rfl⟩
  · obtain ⟨rfl, rfl⟩ := Prod.mk.inj h
    exact ⟨rfl, .inr ⟨_, rfl⟩⟩

/-- Servers are reserved, or refused with nothing changed. -/
theorem meet_reserve {servers : ServerSet} {target : String} {reply : Reply Unit}
    (h : w.meet (.reserve servers target) = (reply, w')) :
    (∃ cause, reply = .failed cause ∧ w' = w) ∨ (reply = .answered () ∧ ∃ reservations,
      w.reservations.reserve servers target = .ok reservations ∧
        w' = { w with reservations, held := servers }) := by
  simp only [meet] at h
  split at h
  · next reservations hr =>
    obtain ⟨rfl, rfl⟩ := Prod.mk.inj h
    exact .inr ⟨rfl, reservations, hr, rfl⟩
  · next cause hr =>
    obtain ⟨rfl, rfl⟩ := Prod.mk.inj h
    exact .inl ⟨_, rfl, rfl⟩

end World

/-- An operation is ready and holds the membership lock, so no drain runs. -/
structure View.Alone (free : TableName → Prop) (v : View) : Prop where
  ready : v.Ready free
  idle : v.world.Idle
  granted : ⟨.membership, false, .operation⟩ ∈ v.world.locks.grants

theorem View.Settles.alone {free : TableName → Prop} {v v' : View} (h : v.Settles v')
    (hv : v.Alone free) : v'.Alone free := by
  refine ⟨h.ready hv.ready, h.world.idle hv.idle, ?_⟩
  rw [h.world.locks]
  exact hv.granted

section Rules

variable {E : Setting} {free : TableName → Prop} {a : Agent} {v : View} {α : Type}

/-- After a wait for a lock an activity holds it, in whatever calm world it finds. -/
theorem ensures_lock {l : Lock} {post : Unit → View → Prop} (hv : v.Steady free)
    (h : ∀ v', v'.owed = v.owed → v'.Steady free →
      ⟨l, false, .operation⟩ ∈ v'.world.locks.grants → (l = .membership → v'.world.Idle) →
      post () v') :
    (ask (.lock l false .operation) done).Ensures ((confining free).rule E a) post v := by
  refine ⟨fun _ => hv, fun v' hmeets _ => ?_⟩
  have howed : v'.owed = v.owed := hmeets.1
  have hcalm : v'.world.Calm free (v'.others ∪ v'.owed) := hmeets.2
  refine ⟨hcalm.confined, fun answer w hm => ?_, fun cause w hm => ?_, fun w hm => ?_⟩
  · rcases meet_lock hm with ⟨hr, -⟩ | ⟨-, hfree, rfl⟩
    · cases hr
    · refine h ⟨_, v'.owed, v'.others⟩ howed (hcalm.grant l false) List.mem_cons_self ?_
      -- a drain would hold the membership lock, which has just been free
      rintro rfl
      exact hcalm.idle_of_isFree hfree
  · rcases meet_lock hm with ⟨hr, -⟩ | ⟨hr, -⟩ <;> cases hr
  · rcases meet_lock hm with ⟨hr, -⟩ | ⟨hr, -⟩ <;> cases hr

/-- After a wait for the end of a drain an activity finds a calm world. -/
theorem ensures_join {number : Nat} {post : Ending → View → Prop} (hv : v.Steady free)
    (h : ∀ ending v', v'.owed = v.owed → v'.Steady free → post ending v') :
    (ask (.join number) done).Ensures ((confining free).rule E a) post v := by
  refine ⟨fun _ => hv, fun v' hmeets _ => ?_⟩
  have howed : v'.owed = v.owed := hmeets.1
  have hcalm : v'.world.Calm free (v'.others ∪ v'.owed) := hmeets.2
  refine ⟨hcalm.confined, fun answer w hm => ?_, fun cause w hm => ?_, fun w hm => ?_⟩
  · obtain ⟨rfl, -⟩ := meet_join hm
    exact h answer ⟨v'.world, v'.owed, v'.others⟩ howed hcalm
  · obtain ⟨-, hr | ⟨ending, hr⟩⟩ := meet_join hm <;> cases hr
  · obtain ⟨-, hr | ⟨ending, hr⟩⟩ := meet_join hm <;> cases hr

variable (hE : E.Pipelined)

include hE

/-- A lock that is given back leaves the world calm. -/
theorem ensures_unlock {l : Lock} {post : Unit → View → Prop} (hv : v.Steady free)
    (h : ∀ v', v'.owed = v.owed → v'.Steady free → post () v') :
    (ask (.unlock l) done).Ensures ((confining free).rule E a) post v := by
  refine ensures_met hE rfl hv.fine fun v' hsettles _ => ?_
  have hv' := hsettles.steady hv
  refine ⟨fun answer w hm => ?_, fun cause w hm => ?_, fun w hm => ?_⟩
  · obtain ⟨-, rfl⟩ := Prod.mk.inj hm
    exact h ⟨_, v'.owed, v'.others⟩ hsettles.owed (World.Calm.release hv' l)
  · cases (Prod.mk.inj hm).1
  · cases (Prod.mk.inj hm).1

/-- While an activity holds a lock it may do anything that leaves the world calm in the end. -/
theorem ensures_holding {l : Lock} {body : Program α} {post : α → View → Prop}
    (hv : v.Steady free)
    (h : ∀ v', v'.owed = v.owed → v'.Steady free →
      ⟨l, false, .operation⟩ ∈ v'.world.locks.grants → (l = .membership → v'.world.Idle) →
      body.Ensures ((confining free).rule E a) (fun result v₁ => v₁.Steady free ∧
        ∀ v₂ : View, v₂.owed = v₁.owed → v₂.Steady free → post result v₂) v') :
    (holding l body).Ensures ((confining free).rule E a) post v := by
  rw [Program.ensures_holding]
  refine ensures_lock hv fun v' howed hv' hg hidle => ?_
  refine (h v' howed hv' hg hidle).mono Discipline.rule_monotone ?_
  rintro result v₁ ⟨hv₁, hpost⟩
  exact ensures_unlock hE hv₁ hpost

/-- While an operation holds the membership lock it is alone. -/
theorem ensures_alone {body : Program α} {post : α → View → Prop} (hv : v.Ready free)
    (h : ∀ v', v'.Alone free → body.Ensures ((confining free).rule E a) (fun result v₁ =>
      v₁.Steady free ∧ ∀ v₂ : View, v₂.owed = v₁.owed → v₂.Steady free → post result v₂) v') :
    (holding .membership body).Ensures ((confining free).rule E a) post v := by
  refine ensures_holding hE hv.steady fun v' howed hv' hg hidle => h v' ?_
  exact ⟨hv.of_steady howed hv', hidle rfl, hg⟩

/-! ### Changes of the registry -/

/-- A change of the registry is not refused, and leaves everything else alone. -/
theorem ensures_write {c : Call} {post : c.Answer → View → Prop} (hc : c.writes = true)
    (hv : v.Fine free)
    (h : ∀ w answer w', v.world.Settles w → w.Rewrites w' → w.site.registry.Warranted c →
      w.site.registry.Serves c answer w'.site.registry →
      post answer ⟨w', Request.owed (.call c) answer v.owed, v.others⟩) :
    (call c).Ensures ((confining free).rule E a) post v := by
  refine ensures_served hE hv (fun w _ hwarranted => hwarranted.answered hc) ?_
  intro w answer w' hw hwarranted hm hfaults
  have hsite : w'.site = { w.site with registry := w'.site.registry } := by
    rw [(answered_call hm).2]
    exact Registry.site_serve_of_writes hc
  have hrewrites : w.Rewrites w' := ⟨alike_call hm, hsite, hfaults⟩
  exact h w answer w' hw hrewrites hwarranted (World.serves_of_answered hm)

/-- A change of the registry that moves the home of no region leaves an operation ready. -/
theorem ensures_rewrite {c : Call} {post : c.Answer → View → Prop} (hc : c.writes = true)
    (hv : v.Alone free) (howed : ∀ answer, Request.owed (.call c) answer v.owed = v.owed)
    (hhome : ∀ {r : Registry} {answer : c.Answer} {r' : Registry}, r.Warranted c →
      r.Serves c answer r' → r.Partitioned → r'.Partitioned ∧
        ∀ s t, r.Hosts s t → r'.Hosts s t)
    (h : ∀ answer v', v'.Ready free → post answer v') :
    (call c).Ensures ((confining free).rule E a) post v := by
  refine ensures_write hE hc hv.ready.fine fun w answer w' hw hw' hwarranted hserves => ?_
  have hcalm := hw.calm hv.ready.calm
  obtain ⟨hp, hhome⟩ := hhome hwarranted hserves hcalm.sane.partitioned
  refine h answer _ ⟨(howed answer).trans hv.ready.owed, ?_⟩
  exact hw'.calm hcalm (hw.idle hv.idle) hp (fun r s _ hhosts => .inl (hhome s r.table hhosts))
    fun _ hr => hr

end Rules

/-! ### Programs that look -/

variable {E : Setting} {free : TableName → Prop} {α β : Type}

/-- A program of an operation that starts ready moves nothing, and keeps to the discipline. -/
def Looks (E : Setting) (free : TableName → Prop) (p : Program α) : Prop :=
  ∀ (o : Operation) (v : View), v.Ready free →
    p.Ensures ((confining free).rule E (.operation o)) (fun _ v' => v.Settles v') v

theorem looks_pure (result : α) : Looks E free (pure result : Program α) := fun _ v _ => .refl v

theorem looks_fail (cause : Error) : Looks E free (fail cause : Program α) := fun _ _ hv => hv

theorem looks_refuseIf {p : Prop} [Decidable p] {cause : Refusal} :
    Looks E free (refuseIf p cause) := by
  intro o v hv
  exact ensures_refuseIf.2 ⟨fun _ => hv, fun _ => .refl v⟩

theorem Looks.bind {p : Program α} {f : α → Program β} (hp : Looks E free p)
    (hf : ∀ result, Looks E free (f result)) : Looks E free (p >>= f) := by
  intro o v hv
  rw [ensures_bind]
  refine (hp o v hv).mono Discipline.rule_monotone fun result v₁ hv₁ => ?_
  refine (hf result o v₁ (hv₁.ready hv)).mono Discipline.rule_monotone fun _ v₂ hv₂ => ?_
  exact hv₁.trans hv₂

section Quiet

variable (hE : E.Pipelined)

include hE

theorem looks_quiet {q : Request} (hq : q.quiet = true) : Looks E free (ask q done) := by
  intro o v hv
  refine ensures_settled hE hq hv.fine (fun answer => ?_) fun _ _ hv' => hv'
  -- where nothing is owed, a quiet request adds nothing
  rw [hv.owed]
  cases q with
  | call c =>
    cases c with
    | unassign r => exact Set.empty_sdiff _
    | regionsOf t => exact Set.sep_empty _
    | moveTables => cases hq
    | _ => rfl
  | _ => rfl

theorem looks_call {c : Call} (hc : c.quiet = true) : Looks E free (call c) := looks_quiet hE hc

theorem looks_hook (h : Hook) : Looks E free (hook h) := looks_quiet hE rfl

theorem looks_note (n : Notice) : Looks E free (note n) := looks_quiet hE rfl

theorem looks_checking {p : Program α} (h : p.Checking) : Looks E free p := by
  induction p with
  | done a => exact looks_pure a
  | fail cause => exact looks_fail cause
  | ask q next ih =>
    have hq : q.quiet = true := by
      cases q with
      | call c => cases c <;> first | rfl | cases h.1
      | _ => cases h.1
    exact (looks_quiet hE hq).bind fun answer => ih answer (h.2 answer)

end Quiet

/-- An operation that is alone still is after it has looked. -/
theorem Looks.andThen {p : Program α} (h : Looks E free p) {f : α → Program β} {o : Operation}
    {v : View} {post : β → View → Prop} (hv : v.Alone free)
    (hf : ∀ result v', v'.Alone free →
      (f result).Ensures ((confining free).rule E (.operation o)) post v') :
    (p >>= f).Ensures ((confining free).rule E (.operation o)) post v := by
  rw [ensures_bind]
  refine (h o v hv.ready).mono Discipline.rule_monotone fun result v' hv' => ?_
  exact hf result v' (hv'.alone hv)

/-! ### Orderly programs -/

/-- A program of an operation that starts ready ends ready, and keeps to the discipline. -/
def Orderly (E : Setting) (free : TableName → Prop) (p : Program α) : Prop :=
  ∀ (o : Operation) (v : View), v.Ready free →
    p.Ensures ((confining free).rule E (.operation o)) (fun _ v' => v'.Ready free) v

theorem Looks.orderly {p : Program α} (h : Looks E free p) : Orderly E free p := by
  intro o v hv
  exact (h o v hv).mono Discipline.rule_monotone fun _ v' hv' => hv'.ready hv

theorem Orderly.bind {p : Program α} {f : α → Program β} (hp : Orderly E free p)
    (hf : ∀ result, Orderly E free (f result)) : Orderly E free (p >>= f) := by
  intro o v hv
  rw [ensures_bind]
  exact (hp o v hv).mono Discipline.rule_monotone fun result v' hv' => hf result o v' hv'

theorem orderly_pure (result : α) : Orderly E free (pure result : Program α) :=
  (looks_pure result).orderly

theorem orderly_fail (cause : Error) : Orderly E free (fail cause : Program α) :=
  (looks_fail cause).orderly

theorem orderly_join (number : Nat) : Orderly E free (ask (.join number) done) := by
  intro o v hv
  exact ensures_join hv.steady fun _ v' howed hv' => hv.of_steady howed hv'

theorem Orderly.holding (hE : E.Pipelined) {l : Lock} {body : Program α}
    (h : Orderly E free body) : Orderly E free (Program.holding l body) := by
  intro o v hv
  refine ensures_holding hE hv.steady fun v' howed hv' _ _ => ?_
  refine (h o v' (hv.of_steady howed hv')).mono Discipline.rule_monotone fun _ v₁ hv₁ => ?_
  exact ⟨hv₁.steady, fun v₂ howed₂ hv₂ => hv₁.of_steady howed₂ hv₂⟩

end ServerGroups
