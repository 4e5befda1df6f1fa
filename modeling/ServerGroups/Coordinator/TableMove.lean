/-
ServerGroups/Coordinator/TableMove.lean

Moving tables between groups, and placing new and forgetting deleted tables.

A move first pins all of its tables at once, under the membership lock, and
then unassigns their regions table by table, each under the lock of its table
alone.
-/
import ServerGroups.Coordinator.Lookup

namespace ServerGroups.Coordinator

open Program

/-- Refuses a target that does not exist or has no servers. -/
def checkTarget (target : String) : Program Unit := do
  match ← call (.group target) with
  | none => refuse (.noSuchTarget target)
  | some g => refuseIf (g.servers.size = 0) (.targetWithoutServers target)

/-- Refuses a table that the target pins already. -/
def checkTable (target : Option String) (t : TableName) : Program Unit := do
  match ← call (.groupOfTable t) with
  | none => pure ()
  | some source => refuseIf (some source = target) (.tableAlreadyThere t source)

/-- Pins tables to the target, or unpins them if there is none. -/
def repin (tables : TableSet) (target : Option String) : Program Unit := do
  hook (.preMoveTables tables target)
  match target with
  | none => pure ()
  | some name => checkTarget name
  tables.toList.forM (checkTable target)
  call (.moveTables tables target)
  note (.tablesMoved tables.size target)
  hook (.postMoveTables tables target)

/-- Unassigns every region listed for a table, under the table's lock. -/
def unassignTable (t : TableName) : Program Unit := do
  call (.tableLock t "Group: table move")
  holding (.table t) do
    note (.tableLocked t "Group: table move")
    let regions ← call (.regionsOf t)
    note (.unassigningTable regions.length t)
    regions.forM fun r => call (.unassign r)

/-- Moves tables to a group, or to none. -/
def moveTables (tables : TableSet) (target : Option String) : Program Unit :=
  if tables.size = 0 then note .noTablesToMove
  else do
    holding .membership (repin tables target)
    tables.toList.forM unassignTable

/-- Pins a table that is about to be created to the group that its namespace names, which is
`default` if it names none. -/
def prepareTable (t : TableName) : Program Unit := do
  match ← call (.namespaceOf t.space) with
  | none => refuse (.noSuchNamespace t.space)
  | some n =>
    let name := n.group?.getD defaultGroup
    match ← getGroup name with
    | none => refuse (.groupMissing name)
    | some g =>
      if g.tables.contains t then pure ()
      else do
        note (.placingNewTable t name)
        moveTables {t} (some name)

/-- Unpins a table that has been deleted. -/
def forgetTable (t : TableName) : Program Unit := do
  match ← getGroupOfTable t with
  | none => pure ()
  | some g =>
    note (.forgettingTable t g.name)
    moveTables {t} none

end ServerGroups.Coordinator
