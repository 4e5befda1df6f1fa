/-
ServerGroups/Proofs/Exclusion.lean

Moves of servers exclude each other, and everything else that is reserved.

Servers can be reserved outside the coordinator, too, under labels.  A `Shared`
moment is a moment together with what the labels keep; besides the steps of
the moment, servers may be reserved under a label or given back at any time.
What a label keeps is foreign to the coordinator, and no server is kept under
two labels (`Guards.Keeps`), so whoever gives servers back gives back only
their own.

Then at most one drain runs at a time, and while it runs its servers are
reserved for its target and belong to it, and the registry does not change.
A move that comes for a server that is reserved, by whomever, is refused at
once, at whatever moment, and nothing happens (`moves_exclusive`).
-/
import ServerGroups.Guards
import ServerGroups.Proofs.Confinement
import ServerGroups.Proofs.Exclusion.Lawful
import ServerGroups.Proofs.Runs.Basic

namespace ServerGroups

open Program World

/-! ### Reservations under labels -/

/-- A moment, and the servers that are reserved under labels. -/
structure Shared where
  moment : Moment
  guards : Guards

/-- The moment, with other reservations. -/
def Moment.withReservations (m : Moment) (reservations : Reservations) : Moment :=
  { m with world := { m.world with reservations } }

namespace Shared

/-- A world in which nothing runs, nothing waits, and nothing is reserved under a label. -/
def still (w : World) : Shared := ⟨.still w, .none⟩

/-- The next step of the moment, or a reservation that is made or given back under a label. -/
inductive Step (E : Setting) : Shared → Shared → Prop
  | proceeds {m m' g} (h : m.Step E m') : Step E ⟨m, g⟩ ⟨m', g⟩
  | reserves {m g g' label servers target reservations}
      (h : g.reserve m.world.reservations label servers target = .ok (g', reservations)) :
      Step E ⟨m, g⟩ ⟨m.withReservations reservations, g'⟩
  | releases {m g g' label found reservations}
      (h : g.drop m.world.reservations label = (found, g', reservations)) :
      Step E ⟨m, g⟩ ⟨m.withReservations reservations, g'⟩

/-- What may have happened some time later. -/
abbrev Reaches (E : Setting) : Shared → Shared → Prop := Relation.ReflTransGen (Step E)

end Shared

/-- What happens outside leaves all reservations alone, besides what the coordinator relies on. -/
structure Setting.Discreet (E : Setting) : Prop where
  spares : E.Spares
  reservations : ∀ {w w' : World}, E.outside w w' → w'.reservations = w.reservations

/-- What is kept under labels is reserved, and by nobody else. -/
structure Guards.Keeps (g : Guards) (w : World) : Prop where
  foreign : ∀ {label : String} {servers : ServerSet} {s : ServerAddress},
    g.kept[label]? = some servers → s ∈ servers → ∃ target, w.Foreign s target
  apart : ∀ {label label' : String} {servers servers' : ServerSet} {s : ServerAddress},
    g.kept[label]? = some servers → g.kept[label']? = some servers' → s ∈ servers →
      s ∈ servers' → label = label'

section Keeps

variable {g g' : Guards} {w w' : World} {label : String} {servers : ServerSet} {target : String}
variable {reservations : Reservations} {found : Bool}

theorem Guards.keeps_none (w : World) : Guards.none.Keeps w := by
  have hnone : ∀ label : String, Guards.none.kept[label]? = .none := fun _ =>
    Std.ExtTreeMap.getElem?_empty
  exact ⟨fun h => (by cases (hnone _).symm.trans h), fun h => (by cases (hnone _).symm.trans h)⟩

theorem Guards.Keeps.mono (h : g.Keeps w)
    (hw : ∀ s target, w.Foreign s target → w'.Foreign s target) : g.Keeps w' := by
  refine ⟨fun hl hs => ?_, h.apart⟩
  obtain ⟨target, ht⟩ := h.foreign hl hs
  exact ⟨target, hw _ target ht⟩

/-- Everything that the coordinator claims is reserved. -/
theorem World.At.reserved {st : Stage} (h : w.At st) {s : ServerAddress} (hs : w.Claims s) :
    ∃ target, w.reservations.target? s = some target := by
  rcases hs with hs | ⟨number, m, hm, hs⟩
  · have hgrasped := h.grasped
    cases st with
    | free =>
      rw [hgrasped.1] at hs
      exact absurd hs Std.ExtTreeSet.not_mem_empty
    | holding l =>
      rw [hgrasped.1] at hs
      exact absurd hs Std.ExtTreeSet.not_mem_empty
    | reserved servers target =>
      rw [hgrasped.1] at hs
      exact ⟨target, hgrasped.2.2 s hs⟩
    | enrolled servers target =>
      rw [hgrasped.1] at hs
      exact ⟨target, hgrasped.2.2.1 s hs⟩
  · exact ⟨m.target, (h.engaged number m hm).reserved s hs⟩

/-- Other reservations, with those of the coordinator left alone. -/
theorem World.spares_reservations
    (h : ∀ s, w.Claims s → reservations.target? s = w.reservations.target? s) :
    w.Spares { w with reservations } :=
  ⟨rfl, rfl, rfl, fun _ _ => .rfl, h⟩

/-- What a label keeps is given back, and the label keeps nothing any more. -/
theorem Guards.drop_eq (g : Guards) (r : Reservations) (label : String) :
    (g.drop r label).2 = (⟨g.kept.erase label⟩, r.release (g.kept[label]?.getD ∅)) := by
  unfold drop
  split
  · next servers hl => rw [hl]; rfl
  · next hl =>
    have herase : g.kept.erase label = g.kept := by
      refine Std.ExtTreeMap.ext_getElem? fun label' => ?_
      rw [Std.ExtTreeMap.getElem?_erase]
      split
      · next heq => rw [← Std.LawfulEqOrd.eq_of_compare heq, hl]
      · rfl
    rw [hl, herase]
    rfl

theorem Guards.exists_kept {s : ServerAddress} (hs : s ∈ g.kept[label]?.getD ∅) :
    ∃ servers, g.kept[label]? = some servers ∧ s ∈ servers := by
  rcases hl : g.kept[label]? with - | servers <;> rw [hl] at hs
  · exact absurd hs Std.ExtTreeSet.not_mem_empty
  · exact ⟨servers, rfl, hs⟩

theorem Guards.kept_of_erase {label' : String}
    (hl : (g.kept.erase label)[label']? = some servers) :
    label ≠ label' ∧ g.kept[label']? = some servers := by
  rw [Std.ExtTreeMap.getElem?_erase] at hl
  split at hl
  · cases hl
  · next hne => exact ⟨fun heq => hne (heq ▸ Std.ReflCmp.compare_self), hl⟩

/-- A label gives back what it keeps, and nothing else. -/
theorem Guards.Keeps.erase (h : g.Keeps w) (label : String) :
    w.Spares { w with reservations := w.reservations.release (g.kept[label]?.getD ∅) } ∧
      (⟨g.kept.erase label⟩ : Guards).Keeps
        { w with reservations := w.reservations.release (g.kept[label]?.getD ∅) } ∧
      ∀ s target, w.Foreign s target → s ∉ g.kept[label]?.getD ∅ →
        { w with reservations := w.reservations.release (g.kept[label]?.getD ∅) }.Foreign s target := by
  have hforeign : ∀ s target, w.Foreign s target → s ∉ g.kept[label]?.getD ∅ →
      { w with reservations := w.reservations.release (g.kept[label]?.getD ∅) }.Foreign s
        target := by
    intro s target hf hs
    refine ⟨?_, hf.2⟩
    show (w.reservations.release _).target? s = some target
    rw [Reservations.target?_release, if_neg hs]
    exact hf.1
  refine ⟨spares_reservations fun s hs => ?_, ⟨fun hl hs => ?_, fun hl hl' hs hs' => ?_⟩, hforeign⟩
  · -- what a label keeps is not claimed
    rw [Reservations.target?_release, if_neg fun hmem => ?_]
    obtain ⟨servers, hl, hmem⟩ := exists_kept hmem
    obtain ⟨target, hf⟩ := h.foreign hl hmem
    exact hf.2 hs
  · obtain ⟨hne, hl⟩ := kept_of_erase hl
    obtain ⟨target, hf⟩ := h.foreign hl hs
    refine ⟨target, hforeign _ target hf fun hmem => ?_⟩
    obtain ⟨servers', hl', hmem⟩ := exists_kept hmem
    exact hne (h.apart hl' hl hmem hs)
  · exact h.apart (kept_of_erase hl).2 (kept_of_erase hl').2 hs hs'

/-- A label may keep servers that are foreign and that no label keeps yet. -/
theorem Guards.Keeps.insert (h : g.Keeps w)
    (hnew : ∀ s ∈ servers, ∃ target, w.Foreign s target)
    (hfree : ∀ (label' : String) (servers' : ServerSet) (s : ServerAddress),
      g.kept[label']? = some servers' → s ∈ servers → s ∉ servers') :
    (⟨g.kept.insert label servers⟩ : Guards).Keeps w := by
  have hcases : ∀ {label' : String} {servers' : ServerSet},
      (g.kept.insert label servers)[label']? = some servers' →
        (label' = label ∧ servers' = servers) ∨ g.kept[label']? = some servers' := by
    intro label' servers' hl
    rw [Std.ExtTreeMap.getElem?_insert] at hl
    split at hl
    · next heq =>
      exact .inl ⟨(Std.LawfulEqOrd.eq_of_compare heq).symm, (Option.some.inj hl).symm⟩
    · exact .inr hl
  refine ⟨fun hl hs => ?_, fun hl hl' hs hs' => ?_⟩
  · rcases hcases hl with ⟨-, rfl⟩ | hl
    · exact hnew _ hs
    · exact h.foreign hl hs
  · rcases hcases hl with ⟨rfl, rfl⟩ | hold
    · rcases hcases hl' with ⟨rfl, rfl⟩ | hold'
      · rfl
      · exact absurd hs' (hfree _ _ _ hold' hs)
    · rcases hcases hl' with ⟨rfl, rfl⟩ | hold'
      · exact absurd hs (hfree _ _ _ hold hs')
      · exact h.apart hold hold' hs hs'

/-- To reserve servers touches nothing that was reserved before, and the servers are foreign to the
coordinator afterwards. -/
theorem World.At.reserving {st : Stage} (hw : w.At st)
    (hr : w.reservations.reserve servers target = .ok reservations) :
    w.Spares { w with reservations } ∧
      (∀ s goal, w.Foreign s goal → { w with reservations }.Foreign s goal ∧ s ∉ servers) ∧
      ∀ s ∈ servers, { w with reservations }.Foreign s target := by
  have hnew := Reservations.target?_of_reserve hr
  have hspares : w.Spares { w with reservations } := by
    refine spares_reservations fun s hs => ?_
    obtain ⟨goal, hgoal⟩ := hw.reserved hs
    rcases hnew s with ⟨-, hnone, -⟩ | ⟨-, heq⟩
    · cases hnone.symm.trans hgoal
    · exact heq
  refine ⟨hspares, fun s goal hf => ?_, fun s hs => ?_⟩
  · rcases hnew s with ⟨-, hnone, -⟩ | ⟨hnot, heq⟩
    · cases hnone.symm.trans hf.1
    · exact ⟨⟨heq.trans hf.1, fun hc => hf.2 (hspares.claims.1 hc)⟩, hnot⟩
  · rcases hnew s with ⟨-, hnone, htarget⟩ | ⟨hnot, -⟩
    · refine ⟨htarget, fun hc => ?_⟩
      obtain ⟨goal, hgoal⟩ := hw.reserved (hspares.claims.1 hc)
      cases hnone.symm.trans hgoal
    · exact absurd hs hnot

/-- Servers are reserved under a label. -/
theorem Guards.Keeps.reserve (h : g.Keeps w) {st : Stage} (hw : w.At st)
    (hr : g.reserve w.reservations label servers target = .ok (g', reservations)) :
    w.Spares { w with reservations } ∧ g'.Keeps { w with reservations } := by
  unfold Guards.reserve at hr
  split at hr
  · cases hr
  next reserved hreserved =>
  -- first the servers are reserved, and then what the label kept before is given back
  obtain ⟨hspares, hstays, hforeign⟩ := hw.reserving hreserved
  have hkeeps : g.Keeps { w with reservations := reserved } :=
    h.mono fun s goal hf => (hstays s goal hf).1
  have hfree : ∀ (label' : String) (servers' : ServerSet) (s : ServerAddress),
      g.kept[label']? = some servers' → s ∈ servers → s ∉ servers' := by
    intro label' servers' s hl hs hs'
    obtain ⟨goal, hf⟩ := h.foreign hl hs'
    exact (hstays s goal hf).2 hs
  obtain ⟨hspares', hkeeps', hforeign'⟩ := hkeeps.erase label
  have hdrop := g.drop_eq reserved label
  rcases hd : g.drop reserved label with ⟨found, left, after⟩
  rw [hd] at hdrop hr
  obtain ⟨rfl, rfl⟩ := Prod.mk.inj hdrop
  obtain ⟨rfl, rfl⟩ := Prod.mk.inj (Except.ok.inj hr)
  refine ⟨hspares.trans hspares', hkeeps'.insert (fun s hs => ?_) fun label' servers' s hl hs => ?_⟩
  · refine ⟨target, hforeign' s target (hforeign s hs) fun hmem => ?_⟩
    obtain ⟨servers', hl, hmem⟩ := exists_kept hmem
    exact hfree label servers' s hl hs hmem
  · exact hfree label' servers' s (kept_of_erase hl).2 hs

/-- What a label keeps is given back. -/
theorem Guards.Keeps.drop (h : g.Keeps w)
    (hd : g.drop w.reservations label = (found, g', reservations)) :
    w.Spares { w with reservations } ∧ g'.Keeps { w with reservations } := by
  have hdrop := g.drop_eq w.reservations label
  rw [hd] at hdrop
  obtain ⟨rfl, rfl⟩ := Prod.mk.inj hdrop
  exact ⟨(h.erase label).1, (h.erase label).2.1⟩

end Keeps

/-! ### Steps and schedules -/

/-- The same, where besides reservations may change that are not the coordinator's. -/
def Setting.withGuards (E : Setting) : Setting :=
  { E with outside := fun w w' => E.outside w w' ∨
      (w.Spares w' ∧ ∃ reservations, w' = { w with reservations }) }

variable {E : Setting} {w : World} {m m' : Moment} {x x' : Shared}

theorem Setting.Spares.withGuards (hE : E.Spares) : E.withGuards.Spares :=
  fun ho => ho.elim (fun h => hE h) fun h => h.1

theorem Moment.Step.withGuards (h : m.Step E m') : m.Step E.withGuards m' := by
  cases h with
  | outside ho => exact .outside (.inl ho)
  | ticks time => exact .ticks time
  | begins ho => exact .begins ho
  | drains hm he => exact .drains hm he
  | answers hm => exact .answers hm
  | ends he => exact .ends he
  | waits hq => exact .waits hq
  | resumes => exact .resumes
  | drops ha => exact .drops ha

/-- Everyone keeps to the disciplines, and what is kept under labels is foreign. -/
structure Shared.Sound (E : Setting) (x : Shared) : Prop where
  guarded : guarded.Holds E.withGuards x.moment
  exclusive : exclusive.Holds E.withGuards x.moment
  keeps : x.guards.Keeps x.moment.world

theorem Shared.Sound.at (h : x.Sound E) : ∃ st, x.moment.world.At st :=
  exists_at h.guarded h.exclusive

/-- What is outside takes nobody's reservation. -/
theorem Setting.Discreet.foreign (hE : E.Discreet) {w w' : World} (ho : E.outside w w')
    {s : ServerAddress} {target : String} (h : w.Foreign s target) : w'.Foreign s target :=
  h.mono (hE.reservations ho) (hE.spares ho).claims.1

/-- A step of a shared moment is one of the moment, where reservations that are not the
coordinator's may change. -/
theorem Shared.Step.moment (hE : E.Discreet) (h : x.Sound E) (hs : x.Step E x') :
    x.moment.Step E.withGuards x'.moment ∧ x'.guards.Keeps x'.moment.world := by
  cases hs with
  | proceeds hstep =>
    refine ⟨hstep.withGuards, h.keeps.mono fun s target hf => ?_⟩
    rcases hstep.foreign h.guarded h.exclusive with ho | hforeign
    · exact hE.foreign ho hf
    · exact hforeign s target hf
  | reserves hr =>
    obtain ⟨st, hst⟩ := h.at
    obtain ⟨hspares, hkeeps⟩ := h.keeps.reserve hst hr
    exact ⟨.outside (.inr ⟨hspares, _, rfl⟩), hkeeps⟩
  | releases hd =>
    obtain ⟨hspares, hkeeps⟩ := h.keeps.drop hd
    exact ⟨.outside (.inr ⟨hspares, _, rfl⟩), hkeeps⟩

/-- From a fresh world, at every shared moment everyone has what they should. -/
theorem Shared.sound (hE : E.Discreet) (hw : w.Fresh) (h : Shared.Reaches E (.still w) x) :
    Moment.Reaches E.withGuards (.still w) x.moment ∧ x.Sound E := by
  have hholds : ∀ {m}, Moment.Reaches E.withGuards (.still w) m →
      guarded.Holds E.withGuards m ∧ exclusive.Holds E.withGuards m :=
    fun hm => exclusive_holds (Setting.Spares.withGuards fun ho => hE.spares ho) hw hm
  induction h with
  | refl => exact ⟨.refl, (hholds .refl).1, (hholds .refl).2, Guards.keeps_none w⟩
  | tail _ hs ih =>
    obtain ⟨hreach, hsound⟩ := ih
    obtain ⟨hstep, hkeeps⟩ := hs.moment hE hsound
    have hreach' := hreach.tail hstep
    exact ⟨hreach', (hholds hreach').1, (hholds hreach').2, hkeeps⟩

/-! ### Refusals -/

/-- A server that is reserved is found by the check that every move starts with. -/
theorem Reservations.exists_conflict {r : Reservations} {servers : ServerSet} {s : ServerAddress}
    (hs : s ∈ servers) (hr : r.contains s = true) : ∃ s' ∈ servers, ∃ target,
      r.target? s' = some target ∧ r.conflict? servers = some (.alreadyMoving s' target) := by
  rcases hc : r.conflict? servers with - | cause
  · have hnone := conflict?_eq_none.1 hc s hs
    rw [contains, Std.ExtTreeMap.contains_iff_mem, Std.ExtTreeMap.mem_iff_isSome_getElem?] at hr
    rw [show r.targets[s]? = .none from hnone] at hr
    cases hr
  · obtain ⟨s', hs', hcause⟩ := List.exists_of_findSome?_eq_some hc
    obtain ⟨target, htarget, rfl⟩ := Option.map_eq_some_iff.1 hcause
    exact ⟨s', Std.ExtTreeSet.mem_toList.1 hs', target, htarget, rfl⟩

/-- What comes after a program that fails is not run. -/
theorem World.run_bind_of_failed {α β : Type} {p : Program α} {f : α → Program β} {cause : Error}
    {w' : World} : ∀ {w : World}, run p w = (.failed cause, w') →
      run (p >>= f) w = (.failed cause, w') := by
  induction p with
  | done a => exact fun h => by cases h
  | fail e => exact fun h => by cases h; rfl
  | ask q next ih =>
    intro w h
    rw [run] at h
    rw [bind_ask, run]
    split at h
    · next answer w₁ hm => exact ih answer h
    · next e w₁ hm =>
      cases h
      rfl
    · cases h
    · cases h

/-- A move of a server that is reserved already asks for nothing but the reservations. -/
theorem Coordinator.startMove_of_conflict {servers : ServerSet} {target : String} {cause : Refusal}
    (hc : w.reservations.conflict? servers = some cause) :
    World.run (startMove servers target) w = (.failed (.refused cause), w) := by
  unfold startMove
  rcases hl : servers.toList with - | ⟨first, rest⟩
  · rw [Reservations.conflict?, hl] at hc
    cases hc
  · simp only [bind_ask, bind_done, World.run, World.meet, hc]
    rfl

theorem Coordinator.moveServers_of_conflict {servers : ServerSet} {target : String}
    {cause : Refusal} (hc : w.reservations.conflict? servers = some cause) :
    World.run (moveServers servers target) w = (.failed (.refused cause), w) :=
  World.run_bind_of_failed (startMove_of_conflict hc)

/-- An operation that fails where it stands leaves the world as it is. -/
theorem World.At.operate_eq (h : w.At .free) {o : Operation} (ho : ∀ t, o ≠ .forgetTable t)
    {cause : Error} (hr : run o.program w = (.failed cause, w)) :
    w.operate o = (.failed cause, w) := by
  rw [World.operate_eq ho, perform_of_failed hr, World.letGo_eq h.grasped]

/-! ### Exclusive moves -/

/-- **Exclusive moves.**  Whatever operations are called, waited for or given up in whatever order,
and whatever is reserved and given back under labels meanwhile: at most one drain runs at a time.
While it runs, its servers are reserved for its target and belong to it, and whatever happens next
leaves the registry as it is.  A move that comes at any moment with servers one of which is reserved
is refused at once, as a conflict, whatever fails or is held by then, and leaves the world as it is.
If nothing runs at that moment, this is what a call of the move does. -/
theorem moves_exclusive (hE : E.Discreet) (hw : w.Fresh) (h : Shared.Reaches E (.still w) x) :
    (∀ number number' m m', x.moment.world.Running number m → x.moment.world.Running number' m' →
      number = number') ∧
    (∀ number m, x.moment.world.Running number m →
      (∀ s ∈ m.servers, x.moment.world.reservations.target? s = some m.target ∧
        x.moment.world.site.registry.HasServer m.target s) ∧
      ∀ x', x.Step E x' → x'.moment.world.site.registry = x.moment.world.site.registry) ∧
    (∀ servers target, (∃ s ∈ servers, x.moment.world.reservations.contains s = true) →
      ∃ s ∈ servers, ∃ goal, x.moment.world.reservations.target? s = some goal ∧
        World.run (Coordinator.startMove servers target) x.moment.world =
          (.failed (.refused (.alreadyMoving s goal)), x.moment.world) ∧
        World.run (Coordinator.moveServers servers target) x.moment.world =
          (.failed (.refused (.alreadyMoving s goal)), x.moment.world) ∧
        (x.moment.running = none →
          x.moment.world.operate (.startMove servers target) =
            (.failed (.refused (.alreadyMoving s goal)), x.moment.world) ∧
          x.moment.world.operate (.moveServers servers target) =
            (.failed (.refused (.alreadyMoving s goal)), x.moment.world))) := by
  obtain ⟨-, hsound⟩ := Shared.sound hE hw h
  obtain ⟨st, hst⟩ := hsound.at
  refine ⟨fun number number' m m' hm hm' => (hst.one hm hm').1, fun number m hm => ⟨?_, ?_⟩, ?_⟩
  · exact fun s hs => ⟨(hst.engaged number m hm).reserved s hs, (hst.engaged number m hm).members s hs⟩
  · intro x' hs
    refine (hs.moment hE hsound).1.registry_eq ?_ hsound.guarded hsound.exclusive hm
    exact Setting.Spares.withGuards fun ho => hE.spares ho
  · rintro servers target ⟨s, hs, hcontains⟩
    obtain ⟨s', hs', goal, hgoal, hc⟩ := Reservations.exists_conflict hs hcontains
    have hstart : World.run (Coordinator.startMove servers target) x.moment.world = _ :=
      Coordinator.startMove_of_conflict hc
    have hmove : World.run (Coordinator.moveServers servers target) x.moment.world = _ :=
      Coordinator.moveServers_of_conflict hc
    refine ⟨s', hs', goal, hgoal, hstart, hmove, fun hrest => ?_⟩
    have hfree : x.moment.world.At .free := hsound.exclusive.calm hrest
    exact ⟨hfree.operate_eq (fun _ => by simp) hstart, hfree.operate_eq (fun _ => by simp) hmove⟩

theorem Setting.discreet_secluded : Setting.secluded.Discreet := ⟨False.elim, False.elim⟩

/-- A server is on its way to another group, and the other one is reserved under a label. -/
def Shared.crowded : Shared where
  moment := (Moment.still .leaving).withReservations
    ⟨World.leaving.reservations.targets.insert ⟨"rs2", 1⟩ "b"⟩
  guards := ⟨(∅ : Std.ExtTreeMap String ServerSet).insert "guard" {⟨"rs2", 1⟩}⟩

theorem Shared.reaches_crowded :
    Shared.Reaches .secluded (.still (.start {} .pair)) .crowded := by
  have hmoment : Moment.Reaches .secluded (.still (.start {} .pair)) (.still .leaving) :=
    (Moment.reaches_operate _ _ trivial fun _ _ => trivial).trans
      (Moment.reaches_operate _ _ trivial fun _ _ => trivial)
  have hreserve : Guards.none.reserve World.leaving.reservations "guard" {⟨"rs2", 1⟩} "b" =
      .ok (crowded.guards, crowded.moment.world.reservations) := by rfl
  have hshared : Shared.Reaches .secluded (.still (.start {} .pair)) (.still .leaving) :=
    hmoment.lift (fun m => (⟨m, .none⟩ : Shared)) fun _ _ h => Step.proceeds h
  exact hshared.tail (Step.reserves hreserve)

/-- The drain of one server runs, and the other server is refused to whoever asks for it. -/
theorem moves_exclusive_crowded :
    (Shared.crowded.moment.world.reservations.target? ⟨"rs1", 1⟩ = some "a" ∧
      Shared.crowded.moment.world.site.registry.HasServer "a" ⟨"rs1", 1⟩) ∧
    Shared.crowded.moment.world.operate (.startMove {⟨"rs2", 1⟩} "a") =
      (.failed (.refused (.alreadyMoving ⟨"rs2", 1⟩ "b")), Shared.crowded.moment.world) := by
  obtain ⟨-, hdrain, hrefused⟩ := moves_exclusive Setting.discreet_secluded
    (World.fresh_start {} fun hk => atHome_pair.partitioned.named hk) Shared.reaches_crowded
  obtain ⟨m, hm, hservers, htarget⟩ : ∃ m, Shared.crowded.moment.world.Running 0 m ∧
      m.servers = {⟨"rs1", 1⟩} ∧ m.target = "a" :=
    ⟨Move.start {} {⟨"rs1", 1⟩} "default" "a" 0, ⟨by rfl, rfl⟩, rfl, rfl⟩
  have hs := (hdrain 0 m hm).1 ⟨"rs1", 1⟩ (by rw [hservers]; decide +kernel)
  rw [htarget] at hs
  obtain ⟨s, hmem, goal, hgoal, -, -, hcalled⟩ := hrefused {⟨"rs2", 1⟩} "a"
    ⟨⟨"rs2", 1⟩, by decide +kernel, by decide +kernel⟩
  obtain rfl : ⟨"rs2", 1⟩ = s := by simpa using hmem
  have hb : Shared.crowded.moment.world.reservations.target? ⟨"rs2", 1⟩ = some "b" := by
    decide +kernel
  obtain rfl := Option.some.inj (hb.symm.trans hgoal)
  exact ⟨hs, (hcalled rfl).1⟩

end ServerGroups
