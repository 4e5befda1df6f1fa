/-
ServerGroups/Proofs/Schedule/Performance.lean

What is performed on a world is one of the schedules.

`World.operate` runs an operation to its end; whenever it has to wait, the pass
that is due first runs.  Each of these runs is a chain of steps: the program
of an activity is run request by request (`reaches_run`), a pass with what
follows it is run as a whole (`reaches_pass`), and an operation waits, lets
passes come first, and goes on (`reaches_complete`).  So what holds at every
moment that can be reached holds after everything that is performed, with the
clock of the performance.
-/
import ServerGroups.Proofs.Collections
import ServerGroups.Proofs.Ensures
import ServerGroups.Proofs.Requests
import ServerGroups.Proofs.Schedule.Basic

namespace ServerGroups

open Program

/-! ### Programs that never wait -/

/-- No request has to wait, whatever is answered. -/
def straightRule : Rule Unit where
  ask q post _ := q.pauses = false ∧ ∀ answer, post answer ()
  fail _ _ := True

/-- A program that comes to no request for which it may have to wait. -/
def Straight {α : Type} (p : Program α) : Prop := p.Ensures straightRule (fun _ _ => True) ()

namespace Straight

variable {α β : Type}

theorem mono_rule : straightRule.Monotone := fun h hask => ⟨hask.1, fun a => h a () (hask.2 a)⟩

theorem pure (a : α) : Straight (Pure.pure a : Program α) := trivial

theorem bind {p : Program α} {f : α → Program β} (hp : Straight p) (hf : ∀ a, Straight (f a)) :
    Straight (p >>= f) := by
  unfold Straight
  rw [ensures_bind]
  exact Ensures.mono mono_rule (fun a _ _ => hf a) hp

theorem call (c : Call) : Straight (Program.call c) := ⟨rfl, fun _ => trivial⟩

theorem note (n : Notice) : Straight (Program.note n) := ⟨rfl, fun _ => trivial⟩

theorem forM {f : α → Program Unit} (h : ∀ a, Straight (f a)) (l : List α) :
    Straight (l.forM f) := by
  induction l with
  | nil => exact pure ()
  | cons a l ih => exact (h a).bind fun _ => ih

end Straight

namespace Coordinator

theorem straight_ownedAmong (g : Group) : ∀ tables : List TableName, Straight (ownedAmong g tables)
  | [] => .pure _
  | t :: tables => by
    refine Straight.bind ?_ fun _ => (straight_ownedAmong g tables).bind fun _ => .pure _
    unfold owns
    split
    · exact .pure _
    · split
      · exact (Straight.call _).bind fun _ => .pure _
      · exact .pure _

theorem straight_drainServers (m : Move) (regionsOn : ServerAddress → List Region)
    (kept : List TableName) : ∀ pending : List ServerAddress,
      Straight (drainServers m regionsOn kept pending)
  | [] => .pure _
  | s :: rest => by
    refine Straight.bind ?_ fun _ =>
      (straight_drainServers m regionsOn kept rest).bind fun _ => .pure _
    refine (Straight.note _).bind fun _ => (Straight.forM (fun _ => .call _) _).bind fun _ => ?_
    split
    · exact (Straight.note _).bind fun _ => .pure _
    · exact .pure _

/-- A pass of a drain holds its lock already and never waits. -/
theorem straight_drainPass (c : Config) (m : Move) : Straight (drainPass c m) := by
  refine (Straight.call _).bind fun assignments => (Straight.call _).bind fun transitions => ?_
  refine (Straight.call _).bind fun answer => ?_
  rcases answer with - | g
  · exact straight_drainServers m _ _ _
  · exact (straight_ownedAmong g _).bind fun _ => straight_drainServers m _ _ _

theorem straight_finishMove (m : Move) : Straight (finishMove m) :=
  (Straight.call _).bind fun _ => .note _

end Coordinator

/-! ### Running a program -/

namespace World

variable {w w' : World}

/-- Only a request that may have to wait is replied that it has to, and then nothing changes. -/
theorem pauses_of_waiting {q : Request} (h : w.meet q = (.waiting, w')) :
    q.pauses ∧ w' = w := by
  cases q with
  | call c =>
    have hm := (made_meet w c).1
    rw [h] at hm
    cases hm
  | lock lock shared holder =>
    simp only [meet] at h
    split at h
    · cases h
    · cases h
      exact ⟨rfl, rfl⟩
  | join number =>
    simp only [meet] at h
    split at h
    · split at h
      · cases h
      · cases h
        exact ⟨rfl, rfl⟩
    · cases h
  | reserve servers target =>
    simp only [meet] at h
    split at h <;> cases h
  | note | unlock | reservations | launch => cases h

/-- A program that never waits runs to its end. -/
theorem run_ne_waiting {α : Type} {p : Program α} (hp : Straight p) {rest : Program α} :
    ∀ w : World, (run p w).1 ≠ .waiting rest := by
  induction p with
  | done a => exact fun w h => by cases h
  | fail cause => exact fun w h => by cases h
  | ask q next ih =>
    intro w h
    rw [run] at h
    split at h
    · exact ih _ (hp.2 _) _ h
    · cases h
    · cases h
    · next hm =>
      have hq := (pauses_of_waiting hm).1
      rw [hp.1] at hq
      cases hq

end World

namespace Moment

variable (E : Setting) (waiting : List Activity) {w w' : World}

/-- Where the run of a program stops: it ends there, or it comes to a request for which it has to
wait. -/
def Stops {α : Type} (w : World) (rest : Program α) (progress : Progress α) (w' : World) : Prop :=
  w.Ends rest progress w' ∨
    ∃ q next, q.pauses ∧ rest = .ask q next ∧ progress = .waiting rest ∧ w' = w

/-- The run of a program is a chain of answers to the requests of its activity. -/
theorem reaches_run {a : Agent} {p : Program a.Result} : ∀ (owed : Set Region) (w : World),
    ∃ owed' w₁ rest, Reaches E ⟨w, some ⟨a, owed, p⟩, waiting⟩ ⟨w₁, some ⟨a, owed', rest⟩, waiting⟩ ∧
      Stops w₁ rest (World.run p w).1 (World.run p w).2 := by
  induction p with
  | done result => exact fun owed w => ⟨owed, w, _, .refl, .inl .returned⟩
  | fail cause => exact fun owed w => ⟨owed, w, _, .refl, .inl .refused⟩
  | ask q next ih =>
    intro owed w
    rw [World.run]
    split
    · next answer w' h =>
      obtain ⟨owed', w₁, rest, hreach, hstop⟩ := ih answer (q.owed answer owed) w'
      exact ⟨owed', w₁, rest, .head (.answers h) hreach, hstop⟩
    · next cause w' h => exact ⟨owed, w, _, .refl, .inl (.failed h)⟩
    · next w' h => exact ⟨owed, w, _, .refl, .inl (.crashed h)⟩
    · next w' h =>
      obtain ⟨hq, rfl⟩ := World.pauses_of_waiting h
      exact ⟨owed, w', _, .refl, .inr ⟨q, next, hq, rfl, rfl, rfl⟩⟩

/-- A program that never waits is run until it ends. -/
theorem reaches_close {a : Agent} {p : Program a.Result} (hp : Straight p) (owed : Set Region)
    (w : World) : Reaches E ⟨w, some ⟨a, owed, p⟩, waiting⟩
      (close (World.run p w).2 waiting a (World.run p w).1) := by
  obtain ⟨owed', w₁, rest, hreach, hends | ⟨q, next, -, -, hw, -⟩⟩ :=
    reaches_run E waiting owed w (p := p)
  · exact hreach.tail (.ends hends)
  · exact absurd hw (World.run_ne_waiting hp w)

/-! ### Passes -/

theorem close_pass (w : World) (number : Nat) (m : Move)
    {ended : Progress (List ServerAddress)} (h : ended ≠ .returned []) :
    close w waiting (.pass number m) ended = ⟨w.passed number m ended, none, waiting⟩ := by
  cases ended with
  | returned busy =>
    cases busy with
    | nil => exact absurd rfl h
    | cons s busy => rfl
  | _ => rfl

/-- A pass, and what follows the last one, is run as a whole. -/
theorem reaches_pass {number : Nat} {m : Move} (hm : w.moves[number]? = some m)
    (he : m.ending = none) :
    Reaches E ⟨w, none, waiting⟩ ⟨w.pass number m, none, waiting⟩ := by
  have hpass := (reaches_close E waiting (a := .pass number m.drain)
    (Coordinator.straight_drainPass w.config m.drain) ∅ (w.setMove number m.drain)).head
      (.drains hm he)
  unfold World.pass
  dsimp only
  split
  · next w₁ hrun =>
    rw [hrun] at hpass
    exact hpass.trans (reaches_close E waiting (a := .finish number m.drain.settle)
      (Coordinator.straight_finishMove _) ∅ _)
  · next progress w₁ hne hrun =>
    rw [hrun, close_pass waiting _ _ _ hne] at hpass
    exact hpass

theorem nextDue_some {number : Nat} {m : Move} (h : w.nextDue = some (number, m)) :
    w.moves[number]? = some m ∧ m.ending = none := by
  unfold World.nextDue at h
  dsimp only at h
  split at h
  · cases h
  · next first rest hl =>
    have hx := foldl_pick_mem (fun best x : Nat × Move => x.2.wake < best.2.wake) rest first
    rw [Option.some.inj h, ← hl] at hx
    obtain ⟨⟨m', n'⟩, hx', heq⟩ := List.mem_map.1 hx
    cases heq
    obtain ⟨hz, he⟩ := List.mem_filter.1 hx'
    refine ⟨?_, by simpa using he⟩
    have := List.mem_zipIdx_iff_getElem?.1 hz
    rw [← Array.getElem?_toList]
    exact this

/-- Letting time pass runs the passes that are due. -/
theorem reaches_drainUntil (time : Nat) : ∀ (fuel : Nat) (w : World),
    Reaches E ⟨w, none, waiting⟩ ⟨World.drainUntil time fuel w, none, waiting⟩
  | 0, w => .refl
  | fuel + 1, w => by
    rw [World.drainUntil]
    split
    · exact .refl
    · next number m h =>
      split
      · obtain ⟨hm, he⟩ := nextDue_some h
        have hpass := (reaches_pass E waiting (w := w.advance m.wake) hm he).head (.ticks m.wake)
        exact hpass.trans (reaches_drainUntil time fuel _)
      · exact .refl

theorem reaches_sleepUntil (w : World) (time : Nat) :
    Reaches E ⟨w, none, waiting⟩ ⟨w.sleepUntil time, none, waiting⟩ :=
  (reaches_drainUntil E waiting time _ w).tail (.ticks time)

/-! ### Operations -/

theorem conclude_givenUp (o : Operation) (w : World) : (o.conclude (.givenUp, w)).2 = w := by
  cases o <;> rfl

/-- An operation that waits and is given up: the clock goes on, and what it holds is given back. -/
theorem reaches_giveUp {o : Operation} {a : Activity} {deadline : Nat} (ha : E.abandoned a) :
    Reaches E ⟨w, none, a :: waiting⟩
      ⟨(o.conclude (w.giveUp deadline)).2, none, waiting⟩ := by
  rw [World.giveUp, conclude_givenUp]
  have hticks : Reaches E ⟨w, none, a :: waiting⟩ ⟨w.advance deadline, none, [] ++ a :: waiting⟩ :=
    .single (.ticks deadline)
  exact hticks.tail (.drops ha)

/-- An operation that ends without a wait. -/
theorem reaches_ended {o : Operation} {deadline fuel : Nat} {p : Program o.Answer}
    {owed : Set Region} (h : ∀ rest, (World.run p w).1 ≠ .waiting rest) :
    Reaches E ⟨w, some ⟨.operation o, owed, p⟩, waiting⟩
      ⟨(o.conclude (World.complete deadline fuel p w)).2, none, waiting⟩ := by
  obtain ⟨owed', w₁, rest, hreach, hends | ⟨q, next, -, -, hw, -⟩⟩ :=
    reaches_run E waiting owed w (a := .operation o) (p := p)
  · unfold World.complete
    rcases hrun : World.run p w with ⟨progress, w'⟩
    rw [hrun] at hends h
    rcases progress with result | cause | - | rest'
    · exact hreach.tail (.ends hends)
    · exact hreach.tail (.ends hends)
    · exact hreach.tail (.ends hends)
    · exact absurd rfl (h rest')
  · exact absurd hw (h rest)

/-- An operation that comes to a wait. -/
theorem reaches_wait {o : Operation} {p rest : Program o.Answer} (owed : Set Region)
    (h : World.run p w = (.waiting rest, w')) : ∃ owed',
    Reaches E ⟨w, some ⟨.operation o, owed, p⟩, waiting⟩
      ⟨w', none, ⟨.operation o, owed', rest⟩ :: waiting⟩ := by
  obtain ⟨owed', w₁, rest₁, hreach, hstop⟩ :=
    reaches_run E waiting owed w (a := .operation o) (p := p)
  rw [h] at hstop
  rcases hstop with hends | ⟨q, next, hq, rfl, hprogress, rfl⟩
  · cases hends
  · cases hprogress
    exact ⟨owed', hreach.tail (.waits hq)⟩

/-- An operation runs to its end, with passes before it goes on after a wait, or is given up. -/
theorem reaches_complete {o : Operation} {deadline : Nat} (fuel : Nat) : ∀ (p : Program o.Answer)
    (owed : Set Region) (w : World),
    ((World.complete deadline fuel p w).1 = .givenUp → ∀ a, E.abandoned a) →
    Reaches E ⟨w, some ⟨.operation o, owed, p⟩, waiting⟩
      ⟨(o.conclude (World.complete deadline fuel p w)).2, none, waiting⟩ := by
  induction fuel with
  | zero =>
    intro p owed w ha
    rcases hrun : World.run p w with ⟨progress, w'⟩
    cases progress with
    | waiting rest =>
      obtain ⟨owed', hwait⟩ := reaches_wait E waiting owed hrun
      rw [World.complete, hrun] at ha ⊢
      exact hwait.trans (reaches_giveUp E waiting (ha rfl _))
    | _ => exact reaches_ended E waiting fun rest => by rw [hrun]; simp
  | succ fuel ih =>
    intro p owed w ha
    rcases hrun : World.run p w with ⟨progress, w'⟩
    cases progress with
    | waiting rest =>
      obtain ⟨owed', hwait⟩ := reaches_wait E waiting owed hrun
      rw [World.complete, hrun] at ha ⊢
      dsimp only at ha ⊢
      rcases hdue : w'.nextDue with - | ⟨number, m⟩
      · rw [hdue] at ha
        exact hwait.trans (reaches_giveUp E waiting (ha rfl _))
      · rw [hdue] at ha
        dsimp only at ha ⊢
        by_cases hwake : m.wake < deadline
        · rw [if_pos hwake] at ha ⊢
          obtain ⟨hm, he⟩ := nextDue_some hdue
          -- the operation waits, time passes, a pass runs, and the operation goes on
          have hpass := (hwait.tail (.ticks m.wake)).trans
            (reaches_pass E _ (w := w'.advance m.wake) hm he)
          have hgo : Step E ⟨(w'.advance m.wake).pass number m, none,
              [] ++ ⟨.operation o, owed', rest⟩ :: waiting⟩ _ := .resumes
          exact (hpass.tail hgo).trans (ih rest owed' _ ha)
        · rw [if_neg hwake] at ha ⊢
          exact hwait.trans (reaches_giveUp E waiting (ha rfl _))
    | _ => exact reaches_ended E waiting fun rest => by rw [hrun]; simp

theorem conclude_eq_givenUp {o : Operation} {ended : Outcome o.Answer × World} :
    (o.conclude ended).1 = .givenUp ↔ ended.1 = .givenUp := by
  obtain ⟨outcome, w⟩ := ended
  cases o with
  | forgetTable t => cases outcome <;> simp [Operation.conclude]
  | _ => rfl

/-- Performing an operation is one of the schedules in which it is called, unless it is given up
where that may not be. -/
theorem reaches_operate {o : Operation} (ho : E.called o)
    (ha : (w.operate o).1 = .givenUp → ∀ a, E.abandoned a) :
    Reaches E ⟨w, none, waiting⟩ ⟨(w.operate o).2, none, waiting⟩ := by
  have hbegin : Reaches E ⟨w, none, waiting⟩ ⟨w, some (.ofOperation o), waiting⟩ :=
    .single (.begins ho)
  exact hbegin.trans (reaches_complete E waiting _ o.program ∅ w fun h => ha (conclude_eq_givenUp.2 h))

end Moment

end ServerGroups
