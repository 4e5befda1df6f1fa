/-
ServerGroups/World/Passes.lean

The passes of drains, and how a drain ends.

A pass takes no time.  After a pass that left servers pending the next one is
due when the wait is over; after the last one the move is finished.  However a
drain ends, its lock and its servers are given back.
-/
import ServerGroups.World.Requests

namespace ServerGroups.World

/-- Replaces a move. -/
def setMove (w : World) (number : Nat) (m : Move) : World :=
  { w with moves := w.moves.setIfInBounds number m }

/-- Ends a move: its drain gives its lock and its servers back. -/
def endMove (w : World) (number : Nat) (m : Move) (ending : Ending) : World :=
  { w.setMove number { m with ending := some ending } with
    locks := w.locks.releaseAll (.move number)
    reservations := w.reservations.release m.servers }

/-- What the end of a move's last program makes of the move. -/
def finished (w : World) (number : Nat) (m : Move) : Progress Unit → World
  | .returned () => w.endMove number m .completed
  | .failed cause => w.endMove number m (.failed cause)
  | .crashed | .waiting _ => w.endMove number m .crashed

/-- Finishes a move whose servers are all drained. -/
def finish (w : World) (number : Nat) (m : Move) : World :=
  let (progress, w) := run (Coordinator.finishMove m) (w.setMove number m)
  w.finished number m progress

/-- What a pass that was not the last one makes of its move. -/
def passed (w : World) (number : Nat) (m : Move) : Progress (List ServerAddress) → World
  | .returned pending =>
    w.setMove number { m with
      pending
      passes := m.passes + 1
      wake := w.now + m.interval.waitMilliseconds
      interval := w.config.nextInterval m.interval }
  | .failed cause =>
    (w.report (.drainFailed m.source m.target cause)).endMove number
      { m with phase := .failed } (.failed cause)
  | .crashed | .waiting _ => w.endMove number m .crashed

/-- Runs the next pass of a move's drain. -/
def pass (w : World) (number : Nat) (m : Move) : World :=
  let m := m.drain
  match run (Coordinator.drainPass w.config m) (w.setMove number m) with
  | (.returned [], w) => w.finish number m.settle
  | (progress, w) => w.passed number m progress

end ServerGroups.World
