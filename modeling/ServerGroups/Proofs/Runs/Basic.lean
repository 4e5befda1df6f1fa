/-
ServerGroups/Proofs/Runs/Basic.lean

What the run of a program comes to.

`World.run` meets the requests of a program one after the other in a world of
which nothing else makes use, and `World.complete` lets passes of drains come
first wherever the program has to wait.  The `Terms` of a run say

    strict    whether every request is to be answered
    waits     what holds where a request has to wait
    stops     what holds where the run fails, or crashes

and `p.Ensures T.rule post w` says that the run of `p` from `w` keeps to them
and ends, if it returns, with a result and in a world that satisfy `post`.

Design.  A wait is the only place where anything else happens, so what holds
there has to be kept by the passes of drains (`Terms.Stable`), and it is all
that the program knows of the world in which it goes on.
-/
import ServerGroups.Proofs.Ensures
import ServerGroups.Proofs.Schedule.Performance

namespace ServerGroups

open Program

/-- A request that may have to wait does not fail. -/
theorem World.reply_of_pauses {w w' : World} {q : Request} (hq : q.pauses) {reply : Reply q.Answer}
    (h : w.meet q = (reply, w')) : reply = .waiting ∨ ∃ a, reply = .answered a := by
  obtain rfl : (w.meet q).1 = reply := congrArg Prod.fst h
  cases q with
  | lock lock shared holder =>
    simp only [meet]
    split
    · exact .inr ⟨(), rfl⟩
    · exact .inl rfl
  | join number =>
    simp only [meet]
    split
    · split
      · exact .inr ⟨_, rfl⟩
      · exact .inl rfl
    · exact .inr ⟨_, rfl⟩
  | _ => cases hq

/-- Only a failure to forget a table is made something else of. -/
theorem Operation.conclude_eq {o : Operation} (ho : ∀ t, o ≠ .forgetTable t)
    (ended : Outcome o.Answer × World) : o.conclude ended = ended := by
  cases o with
  | forgetTable t => exact absurd rfl (ho t)
  | _ => rfl

theorem World.operate_eq {o : Operation} (ho : ∀ t, o ≠ .forgetTable t) (w : World) :
    w.operate o = w.perform o.program :=
  Operation.conclude_eq ho _

theorem World.perform_of_returned {α : Type} {p : Program α} {a : α} {w w' : World}
    (h : World.run p w = (.returned a, w')) : w.perform p = (.returned a, w'.letGo) := by
  unfold World.perform World.complete
  rw [h]

theorem World.perform_of_failed {α : Type} {p : Program α} {cause : Error} {w w' : World}
    (h : World.run p w = (.failed cause, w')) : w.perform p = (.failed cause, w'.letGo) := by
  unfold World.perform World.complete
  rw [h]

/-- The cause of a failure, for outcomes that are looked at by evaluation. -/
def Outcome.cause? {α : Type} : Outcome α → Option Error
  | .failed cause => some cause
  | _ => none

theorem Outcome.eq_failed {α : Type} {o : Outcome α} {cause : Error}
    (h : o.cause? = some cause) : o = .failed cause := by
  cases o with
  | failed cause' => rw [Option.some.inj h]
  | _ => cases h

/-- What is asked of a run besides its result. -/
structure Terms where
  /-- Whether every request has to be answered. -/
  strict : Prop
  /-- What has to hold where a request has to wait, and holds where it is met at last. -/
  waits : Request → World → Prop
  /-- What has to hold where the run stops short, because it fails with a cause or crashes. -/
  stops : Option Error → World → Prop

namespace Terms

variable {α : Type} (T : Terms)

/-- What has to hold after a reply. -/
def After {q : Request} (post : q.Answer → World → Prop) : Reply q.Answer → World → Prop
  | .answered a, w => post a w
  | .failed cause, w => T.stops (some cause) w
  | .crashed, w => T.stops none w
  | .waiting, w => T.waits q w ∧ ∀ v, T.waits q v → ∀ a v', v.meet q = (.answered a, v') → post a v'

/-- The rule of a run. -/
def rule : Rule World where
  ask q post w := (T.strict → ∃ a, (w.meet q).1 = .answered a) ∧
    T.After post (w.meet q).1 (w.meet q).2
  fail cause w := T.stops (some cause) w

/-- What has to hold where a run ends. -/
def Ends (post : α → World → Prop) : Progress α × World → Prop
  | (.returned a, w) => post a w
  | (.failed cause, w) => T.stops (some cause) w
  | (.crashed, w) => T.stops none w
  | (.waiting rest, w) => ¬ T.strict ∧ ∃ q, T.waits q w ∧
      ∀ v, T.waits q v → rest.Ensures T.rule post v

/-- What has to hold where an operation ends; what it holds itself is given back by then. -/
def Concludes (post : α → World → Prop) : Outcome α × World → Prop
  | (.returned a, w) => ∃ v, post a v ∧ w = v.letGo
  | (.failed cause, w) => ∃ v, T.stops (some cause) v ∧ w = v.letGo
  | (.crashed, w) => ∃ v, T.stops none v ∧ w = v.letGo
  | (.givenUp, w) => ¬ T.strict ∧ ∃ q v, T.waits q v ∧ w = v.letGo

/-- What holds at a wait holds when time has passed, and after a pass of any drain. -/
structure Stable : Prop where
  advance : ∀ {q w}, T.waits q w → ∀ time, T.waits q (w.advance time)
  pass : ∀ {q w number m}, T.waits q w → w.moves[number]? = some m → m.ending = none →
    T.waits q (w.pass number m)

variable {T}

theorem rule_monotone : T.rule.Monotone := by
  rintro q post post' w h ⟨hstrict, hafter⟩
  refine ⟨hstrict, ?_⟩
  generalize w.meet q = met at hafter ⊢
  obtain ⟨reply, w'⟩ := met
  cases reply with
  | answered a => exact h a w' hafter
  | waiting => exact ⟨hafter.1, fun v hv a v' hm => h a v' (hafter.2 v hv a v' hm)⟩
  | _ => exact hafter

/-! ### Soundness -/

variable {post : α → World → Prop} {p : Program α}

/-- A program that meets the rule runs as its terms say. -/
theorem run_ends : ∀ {w : World}, p.Ensures T.rule post w →
    T.Ends post (World.run p w) := by
  induction p with
  | done a => exact fun h => h
  | fail cause => exact fun h => h
  | ask q next ih =>
    rintro w ⟨hstrict, hafter⟩
    rw [World.run]
    rcases hm : w.meet q with ⟨reply, w'⟩
    rw [hm] at hstrict hafter
    cases reply with
    | answered a => exact ih a hafter
    | failed cause => exact hafter
    | crashed => exact hafter
    | waiting =>
      have hnot : ¬ T.strict := fun h => by
        obtain ⟨a, ha⟩ := hstrict h
        cases ha
      refine ⟨hnot, q, hafter.1, fun v hv => ⟨fun h => absurd h hnot, ?_⟩⟩
      -- a request that has waited is answered, or waits again
      have hq := (World.pauses_of_waiting hm).1
      rcases hv' : v.meet q with ⟨reply, v'⟩
      rcases World.reply_of_pauses hq hv' with rfl | ⟨a, rfl⟩
      · obtain rfl := (World.pauses_of_waiting hv').2
        exact ⟨hv, hafter.2⟩
      · exact hafter.2 v hv a v' hv'

/-- An operation that does not wait ends where its run does. -/
theorem complete_of_no_wait {deadline fuel : Nat} {w : World} (h : p.Ensures T.rule post w)
    (hwait : ∀ rest, (World.run p w).1 ≠ .waiting rest) :
    T.Concludes post (World.complete deadline fuel p w) := by
  have hends := run_ends h
  unfold World.complete
  rcases hrun : World.run p w with ⟨progress, w'⟩
  rw [hrun] at hends hwait
  cases progress with
  | waiting rest => exact absurd rfl (hwait rest)
  | _ => exact ⟨w', hends, rfl⟩

/-- An operation that meets the rule ends as its terms say, if what holds at its waits is stable. -/
theorem complete_concludes (hT : T.Stable) {deadline : Nat} (fuel : Nat) : ∀ {p : Program α}
    {w : World}, p.Ensures T.rule post w →
      T.Concludes post (World.complete deadline fuel p w) := by
  induction fuel with
  | zero =>
    intro p w h
    rcases hrun : World.run p w with ⟨progress, w'⟩
    cases progress with
    | waiting rest =>
      have hends := run_ends h
      rw [hrun] at hends
      obtain ⟨hnot, q, hw', -⟩ := hends
      unfold World.complete
      rw [hrun]
      exact ⟨hnot, q, _, hT.advance hw' deadline, rfl⟩
    | _ => exact complete_of_no_wait h fun rest => by rw [hrun]; simp
  | succ fuel ih =>
    intro p w h
    rcases hrun : World.run p w with ⟨progress, w'⟩
    cases progress with
    | waiting rest =>
      have hends := run_ends h
      rw [hrun] at hends
      obtain ⟨hnot, q, hw', hrest⟩ := hends
      have hgiveUp : T.Concludes post (w'.giveUp deadline) :=
        ⟨hnot, q, _, hT.advance hw' deadline, rfl⟩
      unfold World.complete
      rw [hrun]
      dsimp only
      rcases hdue : w'.nextDue with - | ⟨number, m⟩
      · exact hgiveUp
      · dsimp only
        split
        · -- what held at the wait holds when the program goes on after the pass
          obtain ⟨hm, he⟩ := Moment.nextDue_some hdue
          exact ih (hrest _ (hT.pass (hT.advance hw' m.wake) hm he))
        · exact hgiveUp
    | _ => exact complete_of_no_wait h fun rest => by rw [hrun]; simp

theorem operate_concludes (hT : T.Stable) {o : Operation} (ho : ∀ t, o ≠ .forgetTable t)
    {post : o.Answer → World → Prop} {w : World} (h : o.program.Ensures T.rule post w) :
    T.Concludes post (w.operate o) := by
  rw [World.operate_eq ho]
  exact complete_concludes hT _ h

/-- An operation whose requests are all answered does not wait. -/
theorem perform_of_strict (hs : T.strict) {w : World} (h : p.Ensures T.rule post w) :
    T.Concludes post (w.perform p) := by
  refine complete_of_no_wait h fun rest hwait => ?_
  have hends := run_ends h
  rcases hrun : World.run p w with ⟨progress, w'⟩
  rw [hrun] at hends hwait
  obtain rfl : progress = .waiting rest := hwait
  exact hends.1 hs

/-! ### Runs that are answered throughout -/

/-- Every request is answered, and the run may stop as told. -/
def answered (stops : Option Error → World → Prop) : Terms := ⟨True, fun _ _ => False, stops⟩

/-- An operation that is answered throughout and cannot stop short returns. -/
theorem perform_of_returns {w : World} (h : p.Ensures (answered fun _ _ => False).rule post w) :
    ∃ a x, w.perform p = (.returned a, x.letGo) ∧ post a x := by
  have hends := perform_of_strict (T := answered _) trivial h
  rcases hperform : w.perform p with ⟨outcome, w'⟩
  rw [hperform] at hends
  cases outcome with
  | returned a =>
    obtain ⟨x, hx, rfl⟩ := hends
    exact ⟨a, x, rfl, hx⟩
  | failed cause =>
    obtain ⟨x, hx, -⟩ := hends
    exact hx.elim
  | crashed =>
    obtain ⟨x, hx, -⟩ := hends
    exact hx.elim
  | givenUp => exact absurd trivial hends.1

/-- An operation that is answered throughout, cannot return and stops with one cause only fails
with it. -/
theorem perform_of_fails {cause : Error} {stop : World → Prop} {w : World}
    (h : p.Ensures (answered fun cause' x => cause' = some cause ∧ stop x).rule
      (fun _ _ => False) w) :
    ∃ x, w.perform p = (.failed cause, x.letGo) ∧ stop x := by
  have hends := perform_of_strict (T := answered _) trivial h
  rcases hperform : w.perform p with ⟨outcome, w'⟩
  rw [hperform] at hends
  cases outcome with
  | returned a =>
    obtain ⟨x, hx, -⟩ := hends
    exact hx.elim
  | failed cause' =>
    obtain ⟨x, ⟨hcause, hx⟩, rfl⟩ := hends
    obtain rfl := Option.some.inj hcause
    exact ⟨x, rfl, hx⟩
  | crashed =>
    obtain ⟨x, ⟨hcause, -⟩, -⟩ := hends
    cases hcause
  | givenUp => exact absurd trivial hends.1

end Terms

end ServerGroups
