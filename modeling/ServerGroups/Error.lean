/-
ServerGroups/Error.lean

Why an operation failed.

An operation either refuses what it was asked, for one of the causes below, or
passes on unchanged the failure of a service it called, or its background work
crashed.  The wording of every cause is in one place.
-/
import ServerGroups.Namespace
import ServerGroups.Duration

namespace ServerGroups

/-- A call that a service did not complete. -/
inductive ServiceError where
  | unavailable (text : String)
  | rejected (text : String)
deriving DecidableEq, Repr

/-- The wording of a failed call. -/
def ServiceError.message : ServiceError → String
  | .unavailable text => "collaborator unavailable: " ++ text
  | .rejected text => "request rejected: " ++ text

/-- The coarse class of an error. -/
inductive ErrorKind where
  | invalidArgument
  | notFound
  | invalidState
  | conflict
  | unavailable
  | internal
deriving DecidableEq, Repr

namespace ErrorKind

/-- The name of a class. -/
def text : ErrorKind → String
  | invalidArgument => "InvalidArgument"
  | notFound => "NotFound"
  | invalidState => "InvalidState"
  | conflict => "Conflict"
  | unavailable => "Unavailable"
  | internal => "Internal"

/-- The words that introduce an error of a class; a failed call is quoted as it is. -/
def heading : ErrorKind → String
  | invalidArgument => "Invalid argument: "
  | notFound => "Not found: "
  | invalidState => "Invalid state: "
  | conflict => "Conflict: "
  | unavailable => ""
  | internal => "Internal error: "

/-- The wording of an error of a class. -/
def message (k : ErrorKind) (text : String) : String := k.heading ++ text

end ErrorKind

/-- Why a request was refused. -/
inductive Refusal where
  -- arguments
  | zeroInterval
  | capBelowInterval (cap interval : Duration)
  | multiplierBelowOne (multiplier : Binary64)
  | missingPart (part : String)
  | emptyTarget
  | sameGroup (target : String)
  | notOnline (server : ServerAddress)
  | severalSources (source : String) (server : ServerAddress) (group : String)
  | emptyGroupName
  | groupExists (name : String)
  | defaultGroupStays
  | tableAlreadyThere (table : TableName) (group : String)
  | noServerList
  | noTarget
  | noTableList
  -- lookups
  | noSuchGroup (name : String)
  | noSuchTarget (name : String)
  | groupMissing (name : String)
  | noSuchNamespace (name : String)
  -- states
  | serverWithoutGroup (server : ServerAddress)
  | tablesWithoutServers (group : String)
  | targetWithoutServers (group : String)
  | groupHasTables (name : String) (count : Nat)
  | groupHasServers (name : String) (count : Nat)
  | groupReferenced (name space : String)
  -- conflicts
  | alreadyMoving (server : ServerAddress) (target : String)
deriving DecidableEq

namespace Refusal

/-- The class of a cause. -/
def kind : Refusal → ErrorKind
  | zeroInterval | capBelowInterval .. | multiplierBelowOne _ | missingPart _ | emptyTarget
  | sameGroup _ | notOnline _ | severalSources .. | emptyGroupName | groupExists _
  | defaultGroupStays | tableAlreadyThere .. | noServerList | noTarget | noTableList =>
    .invalidArgument
  | noSuchGroup _ | noSuchTarget _ | groupMissing _ | noSuchNamespace _ => .notFound
  | serverWithoutGroup _ | tablesWithoutServers _ | targetWithoutServers _ | groupHasTables ..
  | groupHasServers .. | groupReferenced .. => .invalidState
  | alreadyMoving .. => .conflict

/-- The wording of a cause. -/
def text : Refusal → String
  | zeroInterval => "drain_interval must be greater than zero"
  | capBelowInterval cap interval =>
    "max_drain_interval (" ++ cap.text ++ ") is below drain_interval (" ++ interval.text ++ ")"
  | multiplierBelowOne m =>
    "drain_backoff_multiplier must be a finite value of at least 1.0, got " ++ m.text
  | missingPart part => part ++ " is required"
  | emptyTarget => "The target group cannot be empty"
  | sameGroup target => "Target group is the same as source group: " ++ target
  | notOnline server => "Server " ++ server.text ++ " is not an online server in default group"
  | severalSources source server group =>
    "Move server request should only come from one source group. Expecting only " ++ source ++
      " but " ++ server.text ++ " belongs to " ++ group
  | emptyGroupName => "Group name cannot be empty"
  | groupExists name => "Group already exists: " ++ name
  | defaultGroupStays => "The default group cannot be removed"
  | tableAlreadyThere table group =>
    "Source group is the same as target group for table " ++ table.text ++ ": " ++ group
  | noServerList => "The list of servers cannot be null"
  | noTarget => "The target group cannot be null"
  | noTableList => "The list of tables cannot be null"
  | noSuchGroup name => "Group does not exist: " ++ name
  | noSuchTarget name => "Target group does not exist: " ++ name
  | groupMissing name => "Group " ++ name ++ " does not exist"
  | noSuchNamespace name => "Namespace does not exist: " ++ name
  | serverWithoutGroup server => "Server " ++ server.text ++ " does not have a group"
  | tablesWithoutServers group =>
    "Cannot leave group " ++ group ++ " that contains tables without servers"
  | targetWithoutServers group => "Target group " ++ group ++ " must have at least one server"
  | groupHasTables name count =>
    "Group " ++ name ++ " must have no associated tables: " ++ count.repr
  | groupHasServers name count =>
    "Group " ++ name ++ " has " ++ count.repr ++ " servers; you must remove these servers from " ++
      "the group before the group can be removed"
  | groupReferenced name space =>
    "Group " ++ name ++ " is referenced by namespace: " ++ space ++ " (" ++
      groupProperty ++ ")"
  | alreadyMoving server target =>
    "Server list contains a server that is already being moved: " ++ server.text ++ " (to " ++
      target ++ ")"

end Refusal

/-- Why an operation failed. -/
inductive Error where
  | refused (cause : Refusal)
  | unavailable (cause : ServiceError)
  | internal
deriving DecidableEq

namespace Error

/-- The class of an error. -/
def kind : Error → ErrorKind
  | refused cause => cause.kind
  | unavailable _ => .unavailable
  | internal => .internal

/-- The wording of an error. -/
def message : Error → String
  | refused cause => cause.kind.message cause.text
  | unavailable cause => ErrorKind.unavailable.message cause.message
  | internal => ErrorKind.internal.message "server drain task failed"

end Error

end ServerGroups
