/-
ServerGroups/Coordinator/ServerMove.lean

Moving servers between groups.

A move is checked and written to the registry under the membership lock.  The
lock and the reservation of its servers then go over to the drain of the move,
which gives them back when it ends.
-/
import ServerGroups.Program

namespace ServerGroups.Coordinator

open Program

/-- The target of a move, which must exist. -/
def targetGroup (name : String) : Program Group := do
  refuseIf (name = "") .emptyTarget
  match ← call (.group name) with
  | none => refuse (.noSuchGroup name)
  | some g => pure g

/-- The group of a server that must have one. -/
def groupOf (s : ServerAddress) : Program Group := do
  match ← call (.groupOfServer s) with
  | none => refuse (.serverWithoutGroup s)
  | some g => pure g

/-- Refuses to take a server out of the group `default` that is not online, so that an unknown
address never enters another group. -/
def checkOnline (source : Group) (servers : ServerSet) : Program Unit :=
  if source.isDefault then do
    let online ← call .online
    match servers.toList.find? fun s => !online.contains s with
    | some s => refuse (.notOnline s)
    | none => pure ()
  else pure ()

/-- Refuses a server of another group than the source. -/
def checkSource (source : Group) (s : ServerAddress) : Program Unit := do
  let g ← groupOf s
  refuseIf (g.name ≠ source.name) (.severalSources source.name s g.name)

/-- Checks a move of servers, the first of which is given, and writes it to the registry. -/
def changeMembership (first : ServerAddress) (servers : ServerSet) (target : String) :
    Program (Group × Group) := do
  hook (.preMoveServers servers target)
  let goal ← targetGroup target
  let source ← groupOf first
  refuseIf (source.name = goal.name) (.sameGroup target)
  checkOnline source servers
  servers.toList.forM (checkSource source)
  refuseIf (source.servers.size ≤ servers.size ∧ source.tables.size ≠ 0)
    (.tablesWithoutServers source.name)
  ask (.reserve servers goal.name) done
  let moved ← call (.moveServers servers source.name goal.name)
  note (.serversMoved moved.size source.name goal.name)
  pure (source, goal)

/-- Starts a move of servers; answers the number of the move, or none if there are no servers.
A server that is being moved already is refused without waiting for a lock. -/
def startMove (servers : ServerSet) (target : String) : Program (Option Nat) :=
  match servers.toList with
  | [] => do
    note .noServersToMove
    pure none
  | first :: _ => do
    let reserved ← ask .reservations done
    match Reservations.conflict? reserved servers with
    | some cause => refuse cause
    | none =>
      ask (.lock .membership false .operation) done
      let (source, goal) ← changeMembership first servers target
      let number ← ask (.launch servers source.name goal.name) done
      pure (some number)

/-- Waits for the drain of a move; a crash is reported as an error of its own. -/
def awaitMove (number : Nat) : Program Unit := do
  match ← ask (.join number) done with
  | .completed => pure ()
  | .failed cause => fail cause
  | .crashed =>
    note .moveCrashed
    fail .internal

/-- Moves servers and waits until they are drained. -/
def moveServers (servers : ServerSet) (target : String) : Program Unit := do
  match ← startMove servers target with
  | none => pure ()
  | some number => awaitMove number

end ServerGroups.Coordinator
