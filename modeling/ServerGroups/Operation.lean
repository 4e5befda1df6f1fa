/-
ServerGroups/Operation.lean

The operations of a coordinator, and performing them on a world.
-/
import ServerGroups.Command
import ServerGroups.World.Clock

namespace ServerGroups

/-- An operation of a coordinator. -/
inductive Operation where
  | getGroup (name : String)
  | getGroupOfServer (server : ServerAddress)
  | getGroupOfTable (table : TableName)
  | listGroups
  | addGroup (name : String)
  | removeGroup (name : String)
  /-- Moves servers and waits until they are drained. -/
  | moveServers (servers : ServerSet) (target : String)
  /-- Moves servers without waiting; the answer is the number of the move. -/
  | startMove (servers : ServerSet) (target : String)
  /-- Waits for a move of a given number. -/
  | awaitMove (number : Nat)
  | moveTables (tables : TableSet) (target : Option String)
  | prepareTable (table : TableName)
  | forgetTable (table : TableName)
  | balance (name : String)
  | execute (command : Command)
deriving DecidableEq

namespace Operation

/-- What an operation answers. -/
abbrev Answer : Operation → Type
  | getGroup _ | getGroupOfServer _ | getGroupOfTable _ => Option Group
  | listGroups => List Group
  | startMove .. => Option Nat
  | balance _ => Bool
  | execute _ => Response
  | addGroup _ | removeGroup _ | moveServers .. | awaitMove _ | moveTables .. | prepareTable _
  | forgetTable _ => Unit

/-- What an operation does. -/
def program : (o : Operation) → Program o.Answer
  | getGroup name => Coordinator.getGroup name
  | getGroupOfServer s => Coordinator.getGroupOfServer s
  | getGroupOfTable t => Coordinator.getGroupOfTable t
  | listGroups => Coordinator.listGroups
  | addGroup name => Coordinator.addGroup name
  | removeGroup name => Coordinator.removeGroup name
  | moveServers servers target => Coordinator.moveServers servers target
  | startMove servers target => Coordinator.startMove servers target
  | awaitMove number => Coordinator.awaitMove number
  | moveTables tables target => Coordinator.moveTables tables target
  | prepareTable t => Coordinator.prepareTable t
  | forgetTable t => Coordinator.forgetTable t
  | balance name => Coordinator.balance name
  | execute c => c.execute

/-- What becomes of an operation that has ended.  A failure to forget a table is reported and is no
failure of the operation. -/
def conclude : (o : Operation) → Outcome o.Answer × World → Outcome o.Answer × World
  | .forgetTable t, (.failed cause, w) => (.returned (), w.report (.forgettingFailed t cause))
  | _, ended => ended

end Operation

/-- Performs an operation. -/
def World.operate (w : World) (o : Operation) : Outcome o.Answer × World :=
  o.conclude (w.perform o.program)

end ServerGroups
