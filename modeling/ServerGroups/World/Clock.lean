/-
ServerGroups/World/Clock.lean

The passing of time, and operations that may have to wait.

Design.  The clock moves only when nothing else can happen, so a whole wait is
a walk from one due pass to the next, and a pass moves its drain's next one by
at least a millisecond.  An operation that waits is given up after a while;
what it holds is given back simply when it ends.
-/
import ServerGroups.World.Passes

namespace ServerGroups

/-- How an operation ended; one that waited too long was given up. -/
inductive Outcome (α : Type) where
  | returned (result : α)
  | failed (cause : Error)
  | crashed
  | givenUp

namespace World

/-! ### Passes that are due -/

/-- The move whose pass is due first, if a drain is running. -/
def nextDue (w : World) : Option (Nat × Move) :=
  let running := (w.moves.toList.zipIdx.filter fun x => x.1.ending.isNone).map fun x => (x.2, x.1)
  match running with
  | [] => none
  | first :: rest =>
    some (rest.foldl (fun best x => if x.2.wake < best.2.wake then x else best) first)

/-- Sets the clock, which never goes back. -/
def advance (w : World) (time : Nat) : World := { w with now := max w.now time }

/-- How many passes there can be until a given time: each drain has at most one for every
millisecond. -/
def passBound (w : World) (time : Nat) : Nat := (w.moves.size + 1) * (time - w.now + 2)

/-- Runs the passes due up to a given time, at most `fuel` of them. -/
def drainUntil (time : Nat) : (fuel : Nat) → World → World
  | 0, w => w
  | fuel + 1, w =>
    match w.nextDue with
    | none => w
    | some (number, m) =>
      if m.wake ≤ time then drainUntil time fuel ((w.advance m.wake).pass number m) else w

/-- Lets time pass up to a given moment, with every pass that is due by then. -/
def sleepUntil (w : World) (time : Nat) : World :=
  (drainUntil time (w.passBound time) w).advance time

/-- Runs the passes that are due now. -/
def settle (w : World) : World := w.sleepUntil w.now

/-! ### Operations -/

/-- How long an operation waits before it is given up, in milliseconds. -/
def patience : Nat := 100000

/-- Gives an operation up at a given time. -/
def giveUp {α : Type} (w : World) (time : Nat) : Outcome α × World :=
  (.givenUp, (w.advance time).letGo)

/-- Runs an operation to its end.  Whenever it has to wait, the next pass of a drain runs, if one
is due before the deadline; at most `fuel` passes run. -/
def complete {α : Type} (deadline : Nat) : (fuel : Nat) → Program α → World → Outcome α × World
  | fuel, p, w =>
    match run p w with
    | (.returned result, w) => (.returned result, w.letGo)
    | (.failed cause, w) => (.failed cause, w.letGo)
    | (.crashed, w) => (.crashed, w.letGo)
    | (.waiting rest, w) =>
      match fuel, w.nextDue with
      | fuel + 1, some (number, m) =>
        if m.wake < deadline then complete deadline fuel rest ((w.advance m.wake).pass number m)
        else w.giveUp deadline
      | _, _ => w.giveUp deadline

/-- Performs an operation, which may take up to the time that it is waited for. -/
def perform {α : Type} (w : World) (p : Program α) : Outcome α × World :=
  complete (w.now + patience) ((w.moves.size + 2) * (patience + 2)) p w

end World

end ServerGroups
