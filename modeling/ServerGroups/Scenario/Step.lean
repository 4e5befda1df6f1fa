/-
ServerGroups/Scenario/Step.lean

The steps of a scenario: operations of the coordinator, direct uses of the
services and locks around it, changes from outside, faults, and the passing of
time.

What a step starts and a later step refers to has a label.
-/
import ServerGroups.Change
import ServerGroups.Operation

namespace ServerGroups

/-- A step of a scenario. -/
inductive Step where
  -- the coordinator
  | operate (operation : Operation)
  /-- Starts a move and labels it. -/
  | startMove (label : String) (servers : ServerSet) (target : String)
  | phase (label : String)
  /-- Waits for a move; its label is forgotten. -/
  | awaitMove (label : String)
  | forgetMove (label : String)
  /-- Reserves servers under a label. -/
  | reserve (label : String) (servers : ServerSet) (target : String)
  | release (label : String)
  | holdPlacement
  | freePlacement
  -- time and faults
  | sleep (milliseconds : Nat)
  | fault (fault : Fault)
  | heal
  /-- Lets a recording observer refuse a hook. -/
  | refuseHook (name : String)
  /-- Lays down answers of the balancer. -/
  | script (plans : List (Option (List Placement)))
  -- the services
  /-- Calls a service without the coordinator. -/
  | call (call : Call)
  | change (change : Change)
  /-- Adds regions of a table on a server. -/
  | spread (table : TableName) (server : ServerAddress) (count : Nat) (stem : String)
  | assignmentOf (region : Region)
  | regionsOn (server : ServerAddress)
  | strays
  | unassigned
  | snapshots
  /-- Takes the lock of a table and keeps it under a label. -/
  | lockTable (table : TableName) (shared : Bool) (label : String)
  | unlockTable (label : String)
  | isLocked (table : TableName)

namespace Step

/-- What a step answers if it does not fail. -/
abbrev Answer : Step → Type
  | operate o => o.Answer
  | startMove .. => Phase
  | phase _ => Option Phase
  | awaitMove _ | forgetMove _ | release _ | freePlacement | unlockTable _ | isLocked _ => Bool
  | call c => c.Answer
  | assignmentOf _ => Option ServerAddress
  | regionsOn _ | strays | unassigned => List Region
  | snapshots => List Snapshot
  | reserve .. | holdPlacement | sleep _ | fault _ | heal | refuseHook _ | script _ | change _
  | spread .. | lockTable .. => Unit

end Step

end ServerGroups
