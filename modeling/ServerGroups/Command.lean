/-
ServerGroups/Command.lean

Administrative commands and their responses.

A list that was not given differs from an empty one, so lists are optional.
-/
import ServerGroups.Coordinator.Lookup
import ServerGroups.Coordinator.Groups
import ServerGroups.Coordinator.ServerMove
import ServerGroups.Coordinator.TableMove
import ServerGroups.Coordinator.Balance

namespace ServerGroups

/-- An administrative command. -/
inductive Command where
  | getGroup (name : String)
  | getGroupOfTable (table : TableName)
  | getGroupOfServer (server : ServerAddress)
  | listGroups
  | addGroup (name : String)
  | removeGroup (name : String)
  | moveServers (servers : Option ServerSet) (target : Option String)
  | moveTables (tables : Option TableSet) (target : Option String)
  | balanceGroup (name : String)
deriving DecidableEq

/-- The response to a command. -/
inductive Response where
  | done
  | group (group : Option Group)
  | groups (groups : List Group)
  | balanced (ran : Bool)
deriving DecidableEq

namespace Command

/-- The name of a command in reports. -/
def title : Command → String
  | getGroup _ => "GetGroup"
  | getGroupOfTable _ => "GetGroupOfTable"
  | getGroupOfServer _ => "GetGroupOfServer"
  | listGroups => "ListGroups"
  | addGroup _ => "AddGroup"
  | removeGroup _ => "RemoveGroup"
  | moveServers .. => "MoveServers"
  | moveTables .. => "MoveTables"
  | balanceGroup _ => "BalanceGroup"

open Program

/-- What a command does. -/
def perform : Command → Program Response
  | getGroup name => do
    pure (.group (← Coordinator.getGroup name))
  | getGroupOfTable table => do
    pure (.group (← Coordinator.getGroupOfTable table))
  | getGroupOfServer server => do
    pure (.group (← Coordinator.getGroupOfServer server))
  | listGroups => do
    pure (.groups (← Coordinator.listGroups))
  | addGroup name => do
    Coordinator.addGroup name
    pure .done
  | removeGroup name => do
    Coordinator.removeGroup name
    pure .done
  | moveServers none _ => refuse .noServerList
  | moveServers (some servers) target =>
    if servers.size = 0 then pure .done
    else
      match target with
      | none | some "" => refuse .noTarget
      | some name => do
        Coordinator.moveServers servers name
        pure .done
  | moveTables none _ => refuse .noTableList
  | moveTables (some tables) target => do
    Coordinator.moveTables tables target
    pure .done
  | balanceGroup name => do
    pure (.balanced (← Coordinator.balance name))

/-- Executes a command, reporting it first. -/
def execute (c : Command) : Program Response := do
  note (.executing c.title)
  c.perform

end Command

end ServerGroups
