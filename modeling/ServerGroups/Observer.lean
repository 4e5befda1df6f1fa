/-
ServerGroups/Observer.lean

Hooks around the administrative operations, and who listens to them.

An operation may have no observer, one that ignores its hooks, or one that
records them.  A recording observer can be told to refuse one hook; what it
refuses it does not record.
-/
import ServerGroups.Error

namespace ServerGroups

/-- A hook, with what it is told. -/
inductive Hook where
  | preMoveServers (servers : ServerSet) (target : String)
  | postMoveServers (servers : ServerSet) (target : String)
  | preMoveTables (tables : TableSet) (target : Option String)
  | postMoveTables (tables : TableSet) (target : Option String)
  | preAddGroup (name : String)
  | postAddGroup (name : String)
  | preRemoveGroup (name : String)
  | postRemoveGroup (name : String)
  | preBalance (name : String)
  | postBalance (name : String) (ran : Bool)
deriving DecidableEq

namespace Hook

/-- The name of a hook. -/
def name : Hook → String
  | preMoveServers .. => "pre_move_servers"
  | postMoveServers .. => "post_move_servers"
  | preMoveTables .. => "pre_move_tables"
  | postMoveTables .. => "post_move_tables"
  | preAddGroup _ => "pre_add_group"
  | postAddGroup _ => "post_add_group"
  | preRemoveGroup _ => "pre_remove_group"
  | postRemoveGroup _ => "post_remove_group"
  | preBalance _ => "pre_balance_group"
  | postBalance .. => "post_balance_group"

/-- What a hook is about, in the words of a recorded event. -/
def subject : Hook → String
  | preMoveServers _ target | postMoveServers _ target => target
  | preMoveTables _ target | postMoveTables _ target => target.getD "none"
  | preAddGroup name | postAddGroup name | preRemoveGroup name | postRemoveGroup name
  | preBalance name => name
  | postBalance name ran => name ++ "=" ++ (if ran then "true" else "false")

/-- `hook:subject`. -/
def event (h : Hook) : String := h.name ++ ":" ++ h.subject

end Hook

/-- An observer that records the hooks that reach it, except one that it refuses. -/
structure Recorder where
  events : Array Hook := #[]
  refuses : Option String := none
deriving DecidableEq

/-- Records a hook, or refuses it. -/
def Recorder.record (r : Recorder) (h : Hook) : Except ServiceError Recorder :=
  if r.refuses = some h.name then .error (.rejected (h.name ++ " refused"))
  else .ok { r with events := r.events.push h }

/-- Who listens to the hooks of a coordinator. -/
inductive Observer where
  | absent
  | silent
  | recording (recorder : Recorder)
deriving DecidableEq

namespace Observer

/-- Whether there is an observer to call. -/
def isPresent : Observer → Bool
  | absent => false
  | _ => true

/-- Calls a hook. -/
def hear (o : Observer) (h : Hook) : Except ServiceError Observer :=
  match o with
  | recording recorder => (recorder.record h).map recording
  | _ => .ok o

/-- The hooks recorded, oldest first. -/
def events : Observer → Array Hook
  | recording recorder => recorder.events
  | _ => #[]

end Observer

end ServerGroups
