/-
ServerGroups/Coordinator/Ownership.lean

Which tables a group owns: those pinned to it, and, if it is the group
`default`, every table that no group pins.
-/
import ServerGroups.Program

namespace ServerGroups.Coordinator

open Program

/-- Whether a group owns a table; the registry is asked only about tables that the group `default`
does not pin. -/
def owns (g : Group) (t : TableName) : Program Bool :=
  if g.tables.contains t then pure true
  else if g.isDefault then do
    let pinnedTo ← call (.groupOfTable t)
    pure pinnedTo.isNone
  else pure false

/-- Those of some tables that a group owns, in the order given. -/
def ownedAmong (g : Group) : List TableName → Program (List TableName)
  | [] => pure []
  | t :: ts => do
    let owned ← owns g t
    let others ← ownedAmong g ts
    pure (if owned then t :: others else others)

/-- The tables of all regions that are assigned or in transition. -/
def tablesInUse (assignments : Std.ExtTreeMap Region ServerAddress)
    (transitions : Std.ExtTreeMap String RegionTransition) : List TableName :=
  assignments.toList.map (fun a => a.1.table) ++
    transitions.toList.map (fun x => x.2.region.table)

/-- Those of some tables that a group owns, once each and in table order. -/
def owned (g : Group) (candidates : List TableName) : Program (List TableName) :=
  ownedAmong g (Std.ExtTreeSet.ofList candidates).toList

end ServerGroups.Coordinator
