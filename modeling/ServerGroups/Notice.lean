/-
ServerGroups/Notice.lean

What the coordinator and the services around it report while they work, and
the line that each report is logged as.
-/
import ServerGroups.Call
import ServerGroups.Text.Quoted

namespace ServerGroups

/-- How important a report is. -/
inductive Level where
  | debug
  | info
  | error
deriving DecidableEq, Repr

/-- The name of a level. -/
def Level.text : Level → String
  | debug => "DEBUG"
  | info => "INFO"
  | error => "ERROR"

/-- A report. -/
inductive Notice where
  -- services
  | registryAdding (group : String)
  | registryRemoved (group : String)
  | registryMoved (count : Nat) (source target : String)
  | pinHolds (region : Region)
  | planned (moves : Nat)
  | tableLocked (table : TableName) (purpose : String)
  -- groups
  | groupAdded (name : String)
  | groupRemoved (name : String)
  -- moving servers
  | noServersToMove
  | serversMoved (count : Nat) (source target : String)
  | unassigning (count : Nat) (server : ServerAddress) (target : String)
  | drained (server : ServerAddress) (passes : Nat)
  | drainFailed (source target : String) (cause : Error)
  | moveDone (source target : String)
  | moveCrashed
  -- moving tables
  | noTablesToMove
  | tablesMoved (count : Nat) (target : Option String)
  | unassigningTable (count : Nat) (table : TableName)
  | placingNewTable (table : TableName) (group : String)
  | forgettingTable (table : TableName) (group : String)
  | forgettingFailed (table : TableName) (cause : Error)
  -- balancing
  | regionsMoving (names : List String)
  | serversRecovering
  | tablePlanned (table : TableName) (moves : Nat)
  | balanceStarted (group : String) (moves : Nat)
  | balanceMove (placement : Placement)
  | balanceCompleted (group : String)
  -- commands
  | executing (command : String)

namespace Notice

/-- How important a report is. -/
def level : Notice → Level
  | groupAdded _ | groupRemoved _ | serversMoved .. | unassigning .. | moveDone .. | tablesMoved ..
  | balanceStarted .. | balanceMove _ | balanceCompleted _ => .info
  | drainFailed .. | moveCrashed => .error
  | _ => .debug

/-- The wording of a report. -/
def text : Notice → String
  | registryAdding group => "Adding group " ++ group
  | registryRemoved group => "Removed group " ++ group
  | registryMoved count source target | serversMoved count source target =>
    "Moved " ++ count.repr ++ " server(s) from " ++ source ++ " to " ++ target
  | pinHolds region => "Ignoring unassign of pinned region " ++ region.text
  | planned moves => "Computed " ++ moves.repr ++ " placement move(s)"
  | tableLocked table purpose => "Acquired write lock on " ++ table.text ++ ": " ++ purpose
  | groupAdded name => "Added group " ++ name
  | groupRemoved name => "Removed group " ++ name
  | noServersToMove => "move_servers() passed an empty set. Ignoring."
  | unassigning count server target =>
    "Unassigning " ++ count.repr ++ " regions from server " ++ server.text ++ " for move to " ++
      target
  | drained server passes =>
    "Server " ++ server.text ++ " drained after " ++ passes.repr ++ " pass(es)"
  | drainFailed source target cause =>
    "Draining servers moving " ++ source ++ " -> " ++ target ++ " failed: " ++ cause.message
  | moveDone source target => "Move server done: " ++ source ++ "->" ++ target
  | moveCrashed => "Server drain task failed"
  | noTablesToMove => "move_tables() passed an empty set. Ignoring."
  | tablesMoved count target =>
    "Moved " ++ count.repr ++ " table(s) to " ++ target.getD defaultGroup
  | unassigningTable count table =>
    "Unassigning " ++ count.repr ++ " region(s) of " ++ table.text
  | placingNewTable table group => "Pre-moving table " ++ table.text ++ " to group " ++ group
  | forgettingTable table group =>
    "Removing deleted table " ++ table.text ++ " from group " ++ group
  | forgettingFailed table cause =>
    "Failed to perform group cleanup for table " ++ table.text ++ ": " ++ cause.message
  | regionsMoving names =>
    "Not running balancer because " ++ names.length.repr ++ " region(s) in transition: " ++
      Text.quotedList names
  | serversRecovering => "Not running balancer because processing dead regionserver(s)"
  | tablePlanned table moves =>
    "Partial plan for " ++ table.text ++ ": " ++ moves.repr ++ " move(s)"
  | balanceStarted group moves =>
    "Group balance " ++ group ++ " starting with plan count: " ++ moves.repr
  | balanceMove placement => "balance " ++ placement.text
  | balanceCompleted group => "Group balance " ++ group ++ " completed"
  | executing command => "Executing " ++ command

/-- `LEVEL wording`. -/
def line (n : Notice) : String := n.level.text ++ " " ++ n.text

end Notice

end ServerGroups
