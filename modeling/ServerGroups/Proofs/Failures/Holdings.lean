/-
ServerGroups/Proofs/Failures/Holdings.lean

What an operation holds is given back when it fails, and when its drain does.

While an operation is at a stage at which it has reserved servers, they are
the ones that its world holds for it (`Conduct.held`), and the drain that it
launches is a drain of the same servers (`Asked.same_servers`).  So whoever
fails, of the two, gives back all that the operation has reserved.
-/
import ServerGroups.Proofs.Conduct.Drain

namespace ServerGroups

open Program

/-! ### What has been reserved -/

/-- An operation has asked for servers to be reserved. -/
def Asked.Reserves (asked : Asked) (servers : ServerSet) : Prop :=
  ∃ w target, (w, Request.reserve servers target) ∈ asked

/-- A stage at which some servers are reserved. -/
def Stage.Has (st : Stage) (servers : ServerSet) : Prop :=
  ∃ target, st = .reserved servers target ∨ st = .enrolled servers target

/-- Servers that are reserved stay so until a drain is launched. -/
theorem Stage.Has.next {st : Stage} {servers : ServerSet} {q : Request} (h : st.Has servers)
    (hfits : st.Fits q) (hq : q.launches = false) : (st.next q).Has servers := by
  obtain ⟨target, rfl | rfl⟩ := h
  · cases q with
    | call c =>
      cases c with
      | moveServers moved source goal =>
        cases hfits
        exact ⟨_, .inr rfl⟩
      | _ => exact ⟨_, .inl rfl⟩
    | note | reservations => exact ⟨_, .inl rfl⟩
    | lock => cases hfits.1
    | launch => cases hq
    | unlock | reserve | join => cases hfits
  · cases q with
    | call c =>
      cases c with
      | moveServers moved source goal => cases hfits
      | _ => exact ⟨_, .inr rfl⟩
    | note | reservations => exact ⟨_, .inr rfl⟩
    | lock => cases hfits.1
    | launch => cases hq
    | unlock | reserve | join => cases hfits

namespace Asked

variable {asked : Asked} {servers servers' : ServerSet} {number : Nat}

/-- What the laws of stages and of launches allow. -/
structure Regular (asked : Asked) : Prop where
  staged : asked.Lawful fun asked q => staging.fits (staging.after asked) q
  launched : asked.Lawful fun asked q => launching.fits (launching.after asked) q

theorem Regular.tail {x : World × Request} (h : Regular (x :: asked)) : asked.Regular :=
  ⟨h.staged.2.2, h.launched.2.2⟩

/-- What has been reserved is reserved still if no drain has been launched. -/
theorem Regular.has (h : asked.Regular) (hanswered : ∀ x ∈ asked, Answered x)
    (hreserves : asked.Reserves servers) (hnone : launching.after asked = none) :
    (staging.after asked).Has servers := by
  obtain ⟨w, target, hreserve⟩ := hreserves
  induction asked with
  | nil => exact absurd hreserve List.not_mem_nil
  | cons x before ih =>
    obtain ⟨v, q⟩ := x
    obtain ⟨answer, ha⟩ := hanswered _ List.mem_cons_self
    have hmeet : v.meet q = (.answered answer, (v.meet q).2) := Prod.ext ha rfl
    rw [Monitor.after_cons hmeet] at hnone ⊢
    rcases List.mem_cons.1 hreserve with heq | hbefore
    · cases heq
      exact ⟨target, .inl rfl⟩
    · have hq : q.launches = false := by
        cases q <;> first | rfl | cases hnone
      rw [launching_next hq] at hnone
      have hhas := ih h.tail (fun y hy => hanswered y (List.mem_cons_of_mem _ hy)) hnone hbefore
      exact hhas.next h.staged.1 hq

/-- The drain that is launched is a drain of the servers that have been reserved. -/
theorem Regular.same_servers (h : asked.Regular) (hreserves : asked.Reserves servers) {w : World}
    {source target : String} (hlaunch : (w, Request.launch servers' source target) ∈ asked) :
    servers' = servers := by
  obtain ⟨v, goal, hreserve⟩ := hreserves
  induction asked with
  | nil => exact absurd hlaunch List.not_mem_nil
  | cons x before ih =>
    rcases List.mem_cons.1 hlaunch with rfl | hlaunched
    · have hbefore := (List.mem_cons.1 hreserve).resolve_left (by simp)
      cases hn : launching.after before with
      | some number =>
        -- there is no second launch
        rcases launched_awaits h.launched hn with hq | ⟨n, hq⟩ <;> cases hq
      | none =>
        obtain ⟨goal', hhas⟩ := h.tail.has h.staged.2.1 ⟨v, goal, hbefore⟩ hn
        have hfits : staging.after before = .enrolled servers' target := h.staged.1
        rw [hfits] at hhas
        rcases hhas with hhas | hhas <;> cases hhas
        rfl
    · rcases List.mem_cons.1 hreserve with rfl | hbefore
      · -- nothing is reserved after a launch
        have hn := launched_of_mem h.tail.launched hlaunched
        rcases launched_awaits h.launched hn with hq | ⟨n, hq⟩ <;> cases hq
      · exact ih h.tail hlaunched hbefore

end Asked

/-! ### Along the conduct of an operation -/

namespace Conduct

variable {E : Setting} {o : Operation} {w : World} {c c' : Conduct o} {servers : ServerSet}

/-- The law of stages, which every operation obeys. -/
theorem staged (hE : E.Follows) (h : (begin w o).Reaches E c) :
    c.Tracked (staging.law fun _ st => st = .free) :=
  Monitor.tracked hE o.leads h

theorem regular (hE : E.Follows) (h : (begin w o).Reaches E c) :
    (Entry.asked c.entries).Regular :=
  ⟨(staged hE h).lawful, (launching hE h).lawful⟩

/-- A request keeps what the world holds for the operation that has reserved it. -/
theorem held_meet {w w' : World} {q : Request} {answer : q.Answer} {st : Stage}
    (hfits : st.Fits q) (hmeet : w.meet q = (.answered answer, w'))
    (h : ∀ servers, st.Has servers → w.held = servers) :
    ∀ servers, (st.next q).Has servers → w'.held = servers := by
  rintro servers ⟨target, hst⟩
  cases q with
  | call c =>
    rw [(World.alike_call hmeet).held]
    cases c with
    | moveServers moved source goal =>
      rcases hst with hst | hst <;> cases hst
      exact h _ ⟨_, .inl hfits⟩
    | _ => exact h servers ⟨target, hst⟩
  | note n =>
    cases hmeet
    exact h servers ⟨target, hst⟩
  | reservations =>
    cases hmeet
    exact h servers ⟨target, hst⟩
  | reserve reserved goal =>
    rcases World.meet_reserve hmeet with ⟨cause, hfailed, -⟩ | ⟨-, reservations, -, rfl⟩
    · cases hfailed
    · rcases hst with hst | hst <;> cases hst
      rfl
  | join number =>
    cases (show st = .free from hfits)
    rcases hst with hst | hst <;> cases hst
  | lock | unlock | launch => rcases hst with hst | hst <;> cases hst

/-- While an operation runs that has reserved servers, its world holds them for it. -/
theorem held (hE : E.Follows) (h : (begin w o).Reaches E c) : ∀ a, c.moment.running = some a →
    a.agent.isOperation = true → ∀ servers, (staging.after (Entry.asked c.entries)).Has servers →
      c.moment.world.held = servers := by
  induction h with
  | refl =>
    rintro a - - servers ⟨target, hst⟩
    rcases hst with hst | hst <;> cases hst
  | @tail c c' hreach hs ih =>
    intro a hrun ha servers hhas
    have htracked := staged hE hreach
    cases hs with
    | @aside entries outcome m m' hs hm =>
      cases htracked with
      | @runs _ w _ rest =>
        have hsame := hm.resolve_right fun hown => hown _ rfl trivial
        obtain ⟨-, ho | ⟨time, hw⟩⟩ := hs.same hsame (by simp)
        · exact (hE.held ho).trans (ih _ rfl rfl servers hhas)
        · rw [hw]
          exact ih _ rfl rfl servers hhas
      | waits hq _ _ hrest =>
        -- an operation that waits has reserved nothing
        obtain ⟨target, hst⟩ := hhas
        have hfree := Stage.Fits.of_pauses hrest.1 hq
        rcases hst with hst | hst <;> cases hfree.symm.trans hst
      | gone _ hrid => cases ((hs.rid hE.called hrid).running _ hrun).symm.trans ha
    | @answers entries outcome w w' waiting agent owed q next answer hown hmeet =>
      cases hrun
      cases htracked with
      | runs _ _ hrest =>
        rw [Entry.asked_operation, Monitor.after_cons hmeet] at hhas
        exact held_meet hrest.1 hmeet (ih _ rfl rfl) servers hhas
      | waits _ _ _ _ hrun' => cases (hrun' _ rfl).symm.trans ha
      | gone _ hrid => cases (hrid.running _ rfl).symm.trans ha
    | ends he => cases (Moment.isOperation_close _ hrun).symm.trans ha
    | stops hd hown he => cases (Moment.isOperation_close _ hrun).symm.trans ha
    | waits hq => cases hrun

end Conduct

end ServerGroups
