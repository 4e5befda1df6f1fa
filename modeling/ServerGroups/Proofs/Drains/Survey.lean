/-
ServerGroups/Proofs/Drains/Survey.lean

What a settled move has to do with the cluster.

A pass reads the assignments and the transitions, each on a step of its own,
and drops a pending server only if everything that it has read to be there is of
a table that the target owns (`surveying_drainPass`).  So after every step of a
drain each of its servers is still pending, or has been found clear by a pass
(`Moment.FindsClear`); and a settled move has no pending servers.

Design.  The cluster may change from outside between the two reads and after
them, so nothing is said about the cluster itself, only about what was read of
it: the program of a pass is followed with what it has read so far (`Survey`),
and the trail tells on which steps that was (`Survey.TakenBy`).  The registry is
the same as long as the pass runs.
-/
import ServerGroups.Proofs.Drains.Course
import ServerGroups.Proofs.Runs.Drain

namespace ServerGroups

open Program

/-! ### What a pass has read -/

/-- What a pass has read of the cluster so far. -/
structure Survey where
  assignments : Option (Std.ExtTreeMap Region ServerAddress)
  transitions : Option (Std.ExtTreeMap String RegionTransition)

namespace Survey

/-- A pass that has read nothing yet. -/
def blank : Survey := ⟨none, none⟩

/-- What has been read once a request is answered. -/
def after (k : Survey) : (q : Request) → q.Answer → Survey
  | .call .assignments, read => { k with assignments := some read }
  | .call .transitions, read => { k with transitions := some read }
  | _, _ => k

/-- Both have been read, and whatever was read to be on a server is of a table that the target
owns. -/
structure Clear (k : Survey) (r : Registry) (target : String) (s : ServerAddress) : Prop where
  assigned : ∃ read, k.assignments = some read ∧
    ∀ region : Region, read[region]? = some s → r.Owns target region.table
  moving : ∃ read, k.transitions = some read ∧
    ∀ (name : String) (x : RegionTransition), read[name]? = some x → x.server = s →
      r.Owns target x.region.table

end Survey

/-- A registry may give an answer. -/
def Registry.Answers (r : Registry) : (q : Request) → q.Answer → Prop
  | .call c, answer => ∃ r', r.Serves c answer r'
  | _, _ => True

theorem World.answers_of_answered {w w' : World} {q : Request} {answer : q.Answer}
    (h : w.meet q = (.answered answer, w')) : w.site.registry.Answers q answer := by
  cases q with
  | call c => exact ⟨_, serves_of_answered h⟩
  | _ => trivial

/-- The requests of a pass, answered by a registry.  What counts is what has been read. -/
def surveying (r : Registry) : Rule Survey where
  ask q post k := q.reads = true ∧ ∀ answer, r.Answers q answer → post answer (k.after q answer)
  fail _ _ := False

theorem surveying_monotone {r : Registry} : (surveying r).Monotone :=
  fun h hask => ⟨hask.1, fun a ha => h a _ (hask.2 a ha)⟩

namespace Coordinator

variable {r : Registry} {g : Group}

/-- What a group is found to own it owns. -/
theorem surveying_owns (hg : r.groups[g.name]? = some g) (t : TableName) (k : Survey) :
    (owns g t).Ensures (surveying r)
      (fun owned k' => k' = k ∧ (owned = true → r.Owns g.name t)) k := by
  unfold owns
  split
  · next ht => exact ⟨rfl, fun _ => (Registry.ownedBy_iff hg).1 (by simp [Registry.ownedBy, ht])⟩
  · split
    · next hdefault =>
      refine ⟨rfl, fun answer hanswer => ⟨rfl, fun hnone => (Registry.ownedBy_iff hg).1 ?_⟩⟩
      obtain ⟨_, hserves⟩ := hanswer
      rw [hserves.groupOfTable] at hnone
      simp [Registry.ownedBy, hdefault, hnone]
    · exact ⟨rfl, fun hfound => by cases hfound⟩

/-- A pass drops only servers that are clear by what it has read. -/
theorem surveying_drainPass (hn : r.Named) (c : Config) (m : Move) :
    (drainPass c m).Ensures (surveying r)
      (fun busy k => ∀ s ∈ m.pending, s ∉ busy → k.Clear r m.target s) .blank := by
  have hservers : ∀ assignments transitions kept, (∀ t ∈ kept, r.Owns m.target t) →
      (drainServers m (fun s => regionsOnServer c.metaTable s assignments transitions) kept
        m.pending).Ensures (surveying r)
          (fun busy k => ∀ s ∈ m.pending, s ∉ busy → k.Clear r m.target s)
          ⟨some assignments, some transitions⟩ := by
    intro assignments transitions kept hkept
    refine (loop_drainServers surveying_monotone (· = _) (fun _ _ hk => ⟨rfl, fun _ _ => hk⟩)
      (fun _ _ hk => ⟨rfl, fun _ _ => hk⟩) m.pending rfl).mono surveying_monotone ?_
    rintro busy _ ⟨rfl, -, hclear⟩ s hs hnot
    have howned : ∀ region, region ∈ regionsOnServer c.metaTable s assignments transitions →
        r.Owns m.target region.table := fun region hregion =>
      hkept _ (hclear s hs hnot region hregion)
    exact ⟨⟨assignments, rfl, fun region hr => howned region (mem_regionsOnServer.2 (.inl hr))⟩,
      ⟨transitions, rfl, fun name x hx hserver =>
        howned x.region (mem_regionsOnServer.2 (.inr ⟨name, x, hx, rfl, hserver⟩))⟩⟩
  unfold drainPass
  refine ⟨rfl, fun assignments _ => ⟨rfl, fun transitions _ => ⟨rfl, fun answer hanswer => ?_⟩⟩⟩
  obtain ⟨_, hserves⟩ := hanswer
  rcases answer with - | g
  · exact hservers _ _ [] nofun
  · have hg : r.groups[m.target]? = some g := hserves.group.symm
    have hname : g.name = m.target := hn hg
    show Program.Ensures _ _ (owned g _ >>= _) _
    rw [ensures_bind]
    have hg' : r.groups[g.name]? = some g := by rw [hname]; exact hg
    have howned : (owned g (tablesInUse assignments transitions)).Ensures (surveying r)
        (fun kept k => k = ⟨some assignments, some transitions⟩ ∧ ∀ t ∈ kept, r.Owns g.name t)
        ⟨some assignments, some transitions⟩ := by
      refine loop_ownedAmong surveying_monotone (· = _) (fun t k hk => ?_) _ rfl
      rw [hk]
      exact surveying_owns hg' t _
    refine howned.mono surveying_monotone ?_
    rintro kept _ ⟨rfl, hkept⟩
    rw [hname] at hkept
    exact hservers _ _ kept hkept

end Coordinator

/-! ### What is found on the trail -/

namespace Moment

/-- A pass is answered a call. -/
def AnswersAt (number : Nat) (mv : Move) (c : Call) (m m' : Moment) : Prop :=
  ∃ answer, m.Calls (.pass number mv) c (.answered answer) m'

/-- A pass has found a server clear that was pending: when it read the assignments the target owned
the table of every region that was assigned to the server, and when it read the transitions that of
every region that was in transition there; and it has returned without the server. -/
structure FindsClear (number : Nat) (target : String) (s : ServerAddress)
    (steps : List (Moment × Moment)) (mv : Move) : Prop where
  pending : s ∈ mv.pending
  assigned : ∃ x ∈ steps, AnswersAt number mv .assignments x.1 x.2 ∧
    ∀ r : Region, x.1.world.site.cluster.assignments[r]? = some s →
      x.1.world.site.registry.Owns target r.table
  moving : ∃ x ∈ steps, AnswersAt number mv .transitions x.1 x.2 ∧
    ∀ (name : String) (z : RegionTransition),
      x.1.world.site.cluster.transitions[name]? = some z → z.server = s →
        x.1.world.site.registry.Owns target z.region.table
  dropped : ∃ x ∈ steps, ∃ owed busy, x.1.running = some ⟨.pass number mv, owed, .done busy⟩ ∧
    s ∉ busy ∧ x.2 = close x.1.world x.1.waiting (.pass number mv) (.returned busy)

end Moment

open Moment

variable {E : Setting} {m m' : Moment} {number : Nat} {servers : ServerSet} {target : String}
variable {steps : List (Moment × Moment)} {mv mv' : Move} {s : ServerAddress} {k : Survey}
variable {r : Registry} {x : Moment × Moment}

theorem Moment.FindsClear.cons (h : FindsClear number target s steps mv) :
    FindsClear number target s (x :: steps) mv where
  pending := h.pending
  assigned := List.exists_mem_cons_of_exists h.assigned
  moving := List.exists_mem_cons_of_exists h.moving
  dropped := List.exists_mem_cons_of_exists h.dropped

/-- What a pass has read it has read on the steps of a trail, while the registry was a certain
one. -/
structure Survey.TakenBy (number : Nat) (mv : Move) (r : Registry) (steps : List (Moment × Moment))
    (k : Survey) : Prop where
  assigned : ∀ read, k.assignments = some read → ∃ x ∈ steps,
    AnswersAt number mv .assignments x.1 x.2 ∧ x.1.world.site.cluster.assignments = read ∧
      x.1.world.site.registry = r
  moving : ∀ read, k.transitions = some read → ∃ x ∈ steps,
    AnswersAt number mv .transitions x.1 x.2 ∧ x.1.world.site.cluster.transitions = read ∧
      x.1.world.site.registry = r

namespace Survey.TakenBy

theorem blank : Survey.blank.TakenBy number mv r steps := ⟨nofun, nofun⟩

theorem cons (h : k.TakenBy number mv r steps) : k.TakenBy number mv r (x :: steps) where
  assigned read hread := List.exists_mem_cons_of_exists (h.assigned read hread)
  moving read hread := List.exists_mem_cons_of_exists (h.moving read hread)

/-- What is read on one more step. -/
theorem answered {w w' : World} {waiting : List Activity} {owed : Set Region} {q : Request}
    {next : q.Answer → Program (List ServerAddress)} {answer : q.Answer}
    (h : k.TakenBy number mv w.site.registry steps) (hm : w.meet q = (.answered answer, w')) :
    (k.after q answer).TakenBy number mv w.site.registry
      ((⟨w, some ⟨.pass number mv, owed, .ask q next⟩, waiting⟩,
        ⟨w', some ⟨.pass number mv, q.owed answer owed, next answer⟩, waiting⟩) :: steps) := by
  cases q with
  | call c =>
    cases c with
    | assignments =>
      refine ⟨fun read hread => ?_, h.cons.moving⟩
      obtain rfl := Option.some.inj hread
      exact ⟨_, List.mem_cons_self, ⟨answer, .answered hm⟩,
        Except.ok.inj (World.answered_call hm).1, rfl⟩
    | transitions =>
      refine ⟨h.cons.assigned, fun read hread => ?_⟩
      obtain rfl := Option.some.inj hread
      exact ⟨_, List.mem_cons_self, ⟨answer, .answered hm⟩,
        Except.ok.inj (World.answered_call hm).1, rfl⟩
    | _ => exact h.cons
  | _ => exact h.cons

/-- A pass that returns without a server that is clear by what it has read has found it clear. -/
theorem findsClear {w : World} {waiting : List Activity} {owed : Set Region}
    {busy : List ServerAddress} (h : k.TakenBy number mv r steps) (hclear : k.Clear r target s)
    (hs : s ∈ mv.pending) (hbusy : s ∉ busy) : FindsClear number target s
      ((⟨w, some ⟨.pass number mv, owed, .done busy⟩, waiting⟩,
        close w waiting (.pass number mv) (.returned busy)) :: steps) mv where
  pending := hs
  assigned := by
    obtain ⟨read, hread, howned⟩ := hclear.assigned
    obtain ⟨x, hx, hanswers, rfl, rfl⟩ := h.assigned read hread
    exact ⟨x, List.mem_cons_of_mem _ hx, hanswers, howned⟩
  moving := by
    obtain ⟨read, hread, howned⟩ := hclear.moving
    obtain ⟨x, hx, hanswers, rfl, rfl⟩ := h.moving read hread
    exact ⟨x, List.mem_cons_of_mem _ hx, hanswers, howned⟩
  dropped := ⟨_, List.mem_cons_self, owed, busy, rfl, hbusy, rfl⟩

end Survey.TakenBy

/-! ### The servers of a drain -/

/-- Each server of a drain is pending or has been found clear, and a settled move has no pending
servers; what a pass that runs has read so far it has read on the trail. -/
structure Moment.Surveyed (number : Nat) (servers : ServerSet) (target : String)
    (steps : List (Moment × Moment)) (m : Moment) (mv : Move) : Prop where
  record : m.world.Records number servers target mv
  settled : mv.phase = .settled → mv.pending = []
  watched : ∀ s ∈ servers, s ∈ mv.pending ∨ ∃ y, FindsClear number target s steps y
  running : ∀ owed rest, m.running = some ⟨.pass number mv, owed, rest⟩ →
    ∃ k : Survey, k.TakenBy number mv m.world.site.registry steps ∧
      rest.Ensures (surveying m.world.site.registry)
        (fun busy k => ∀ s ∈ mv.pending, s ∉ busy → k.Clear m.world.site.registry target s) k

namespace Moment.Surveyed

theorem watched_cons (h : Surveyed number servers target steps m mv) : ∀ s ∈ servers,
    s ∈ mv.pending ∨ ∃ y, FindsClear number target s (x :: steps) y :=
  fun s hs => (h.watched s hs).imp_right fun ⟨y, hy⟩ => ⟨y, hy.cons⟩

/-- A step after which no pass of the drain runs, and the same servers are pending. -/
theorem rests (h : Surveyed number servers target steps m mv)
    (hm : m'.world.Records number servers target mv') (hpending : mv'.pending = mv.pending)
    (hphase : mv'.phase = .settled → mv.phase = .settled)
    (hrun : ∀ owed rest, m'.running ≠ some ⟨.pass number mv', owed, rest⟩) :
    Surveyed number servers target ((m, m') :: steps) m' mv' where
  record := hm
  settled hsettled := hpending.trans (h.settled (hphase hsettled))
  watched := hpending ▸ h.watched_cons
  running owed rest hrest := absurd hrest (hrun owed rest)

/-- Nobody works on the drain, or its next pass begins. -/
theorem unserved (hE : E.Spares) (hwait : ∀ a ∈ m.waiting, ∃ o, a.agent = .operation o)
    (hn : m.world.site.registry.Named) (h : Surveyed number servers target steps m mv)
    (hrun : ∀ a, m.running = some a → ¬ a.agent.Serves number) (hs : m.Step E m') :
    ∃ y, Surveyed number servers target ((m, m') :: steps) m' y := by
  rcases hs.unserved hE.sparesMoves hwait h.record.move hrun with ⟨hm', hrun'⟩ | ⟨-, -, rfl⟩
  · exact ⟨mv, h.rests (h.record.of_moves hm') rfl id fun _ _ hrest => hrun' _ hrest rfl⟩
  · refine ⟨mv.drain, h.record.setMove rfl rfl, nofun, h.watched_cons, fun owed rest hrest => ?_⟩
    cases hrest
    have htarget : mv.drain.target = target := h.record.target
    refine ⟨.blank, .blank, ?_⟩
    rw [← htarget]
    exact Coordinator.surveying_drainPass hn m.world.config mv.drain

section Passes

variable {w w' : World} {waiting : List Activity} {owed : Set Region}
variable {rest : Program (List ServerAddress)}

/-- What happens outside reads nothing. -/
theorem stays (h : Surveyed number servers target steps
      ⟨w, some ⟨.pass number mv, owed, rest⟩, waiting⟩ mv)
    (hmoves : w'.moves[number]? = some mv) (hregistry : w'.site.registry = w.site.registry) :
    Surveyed number servers target
      ((⟨w, some ⟨.pass number mv, owed, rest⟩, waiting⟩,
        ⟨w', some ⟨.pass number mv, owed, rest⟩, waiting⟩) :: steps)
      ⟨w', some ⟨.pass number mv, owed, rest⟩, waiting⟩ mv where
  record := h.record.of_moves hmoves
  settled := h.settled
  watched := h.watched_cons
  running owed' rest' hrest := by
    obtain ⟨k, hk, hensures⟩ := h.running owed' rest' hrest
    refine ⟨k, ?_, ?_⟩ <;> dsimp only <;> rw [hregistry]
    · exact hk.cons
    · exact hensures

theorem answers {q : Request} {next : q.Answer → Program (List ServerAddress)} {answer : q.Answer}
    (h : Surveyed number servers target steps
      ⟨w, some ⟨.pass number mv, owed, .ask q next⟩, waiting⟩ mv)
    (hm : w.meet q = (.answered answer, w')) :
    Surveyed number servers target
      ((⟨w, some ⟨.pass number mv, owed, .ask q next⟩, waiting⟩,
        ⟨w', some ⟨.pass number mv, q.owed answer owed, next answer⟩, waiting⟩) :: steps)
      ⟨w', some ⟨.pass number mv, q.owed answer owed, next answer⟩, waiting⟩ mv := by
  obtain ⟨k, hk, hreads, hnext⟩ := h.running owed _ rfl
  have hregistry : w'.site.registry = w.site.registry := (World.spares_of_reads hreads hm).registry
  refine ⟨h.record.of_moves (World.moves_meet hm h.record.move), h.settled, h.watched_cons,
    fun owed' rest' hrest => ?_⟩
  cases hrest
  refine ⟨k.after q answer, ?_, ?_⟩ <;> rw [hregistry]
  · exact hk.answered hm
  · exact hnext answer (World.answers_of_answered hm)

/-- A pass that returns drops only servers that it has found clear. -/
theorem returns {busy : List ServerAddress} (h : Surveyed number servers target steps
      ⟨w, some ⟨.pass number mv, owed, .done busy⟩, waiting⟩ mv) (hphase : mv.phase = .draining) :
    ∃ y, Surveyed number servers target
      ((⟨w, some ⟨.pass number mv, owed, .done busy⟩, waiting⟩,
        close w waiting (.pass number mv) (.returned busy)) :: steps)
      (close w waiting (.pass number mv) (.returned busy)) y := by
  obtain ⟨k, hk, hclear⟩ := h.running owed _ rfl
  have hwatched : ∀ s ∈ servers, s ∈ busy ∨ ∃ y, FindsClear number target s
      ((⟨w, some ⟨.pass number mv, owed, .done busy⟩, waiting⟩,
        close w waiting (.pass number mv) (.returned busy)) :: steps) y := by
    intro s hs
    by_cases hbusy : s ∈ busy
    · exact .inl hbusy
    · right
      rcases h.watched s hs with hpending | ⟨y, hy⟩
      · exact ⟨mv, hk.findsClear (hclear s hpending hbusy) hpending hbusy⟩
      · exact ⟨y, hy.cons⟩
  cases busy with
  | nil => exact ⟨mv.settle, h.record.setMove rfl rfl, fun _ => rfl, hwatched, nofun⟩
  | cons s busy =>
    have hrecord := h.record.setMove (y := { mv with
      pending := s :: busy
      passes := mv.passes + 1
      wake := w.now + mv.interval.waitMilliseconds
      interval := w.config.nextInterval mv.interval }) rfl rfl
    refine ⟨_, ⟨hrecord.move, hrecord.servers, hrecord.target⟩, fun hsettled => ?_, hwatched, nofun⟩
    cases hphase.symm.trans hsettled

/-- A pass that fails or crashes leaves the same servers pending. -/
theorem stops {ended : Progress (List ServerAddress)} (h : Surveyed number servers target steps
      ⟨w, some ⟨.pass number mv, owed, rest⟩, waiting⟩ mv)
    (hmoves : w'.moves[number]? = some mv) (hended : ∀ busy, ended ≠ .returned busy) :
    ∃ y, Surveyed number servers target
      ((⟨w, some ⟨.pass number mv, owed, rest⟩, waiting⟩,
        close w' waiting (.pass number mv) ended) :: steps)
      (close w' waiting (.pass number mv) ended) y := by
  have hrecord := h.record.of_moves hmoves
  have hcrashed := hrecord.endMove .crashed
  cases ended with
  | returned busy => exact absurd rfl (hended busy)
  | failed cause =>
    have hfailed := hrecord.setMove
      (y := { mv with phase := .failed, ending := some (.failed cause) }) rfl rfl
    exact ⟨_, h.rests ⟨hfailed.move, hfailed.servers, hfailed.target⟩ rfl nofun nofun⟩
  | crashed => exact ⟨_, h.rests hcrashed rfl id nofun⟩
  | waiting rest => exact ⟨_, h.rests hcrashed rfl id nofun⟩

end Passes

/-- Every step of a drain keeps to this. -/
theorem step (hE : E.Spares) (hwait : ∀ a ∈ m.waiting, ∃ o, a.agent = .operation o)
    (hn : m.world.site.registry.Named) (hc : Course number servers target steps m)
    (h : Surveyed number servers target steps m mv) (hs : m.Step E m') :
    ∃ y, Surveyed number servers target ((m, m') :: steps) m' y := by
  cases hc with
  | rests _ _ _ hrun => exact h.unserved hE hwait hn hrun hs
  | ended _ _ hrun => exact h.unserved hE hwait hn hrun hs
  | @passes w owed waiting mv' asked rest hm he hphase hrest =>
    obtain rfl := Option.some.inj (hm.move.symm.trans h.record.move)
    cases hs with
    | outside ho => exact ⟨mv', h.stays (hE.sparesMoves ho hm.move) (hE ho).registry⟩
    | ticks time => exact ⟨mv', h.stays hm.move rfl⟩
    | answers hmeet => exact ⟨mv', h.answers hmeet⟩
    | ends hends =>
      have hmoves := hends.alike.moves ▸ hm.move
      cases hends with
      | returned => exact h.returns hphase
      | refused => exact hrest.elim
      | failed => exact h.stops hmoves nofun
      | crashed => exact h.stops hmoves nofun
  | @finishes w owed waiting mv' heard rest hm he hphase hrest =>
    obtain rfl := Option.some.inj (hm.move.symm.trans h.record.move)
    cases hs with
    | outside ho =>
      exact ⟨mv', h.rests (hm.of_moves (hE.sparesMoves ho hm.move)) rfl id nofun⟩
    | ticks time => exact ⟨mv', h.rests (hm.of_moves hm.move) rfl id nofun⟩
    | answers hmeet =>
      exact ⟨mv', h.rests (hm.of_moves (World.moves_meet hmeet hm.move)) rfl id nofun⟩
    | @ends w w' _ _ _ _ ended hends =>
      have hm' : w'.Records number servers target mv' :=
        hm.of_moves (hends.alike.moves ▸ hm.move)
      cases ended <;> exact ⟨_, h.rests (hm'.endMove _) rfl id nofun⟩

end Moment.Surveyed

end ServerGroups
