/-
ServerGroups/World/Basic.lean

A coordinator at work: its services, its locks and reservations, its moves,
and the clock.

Design.  Only two things wait: an operation, for a lock or for the end of a
drain, and a drain, for its next pass.  So one holder stands for the operation
that runs, and what it has reserved is kept beside it until it ends.
-/
import ServerGroups.Site
import ServerGroups.Fault
import ServerGroups.Coordinator.Drain

namespace ServerGroups

/-- What has happened, oldest first. -/
structure History where
  /-- The calls made through the coordinator. -/
  calls : Array Call := #[]
  notices : Array Notice := #[]
  /-- The requests to unassign a region that did not fail, with their time. -/
  unassigned : Array (Nat × Region) := #[]
  /-- The placements applied. -/
  placed : Array Placement := #[]

/-- A coordinator, its services and the clock. -/
structure World where
  site : Site
  config : Config
  reservations : Reservations
  locks : Locks
  /-- The servers that the running operation has reserved. -/
  held : ServerSet
  /-- Every move that was started, oldest first. -/
  moves : Array Move
  faults : List Fault
  /-- The time in milliseconds. -/
  now : Nat
  history : History

namespace World

/-- A world at time zero. -/
def start (config : Config) (site : Site) : World where
  site := site
  config := config
  reservations := .none
  locks := .none
  held := ∅
  moves := #[]
  faults := []
  now := 0
  history := {}

/-- Reports. -/
def report (w : World) (n : Notice) : World :=
  { w with history := { w.history with notices := w.history.notices.push n } }

/-- Remembers a call that did not fail, if it is one of those that are kept apart. -/
def remember (w : World) : Call → World
  | .unassign r =>
    { w with history := { w.history with unassigned := w.history.unassigned.push (w.now, r) } }
  | .place p => { w with history := { w.history with placed := w.history.placed.push p } }
  | _ => w

end World

end ServerGroups
