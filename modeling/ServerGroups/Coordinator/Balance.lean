/-
ServerGroups/Coordinator/Balance.lean

Balancing the regions of a group's tables over the group's online servers.

Each table is balanced on its own, so the regions of one table never move to
even out those of another.  Nothing is balanced while a region of the group is
in transition or dead servers are being recovered.
-/
import ServerGroups.Coordinator.Ownership

namespace ServerGroups.Coordinator

open Program

/-- The regions of a table that are assigned to each of some servers. -/
def snapshot (servers : ServerSet) (assignments : Std.ExtTreeMap Region ServerAddress)
    (t : TableName) : Snapshot :=
  Std.ExtTreeMap.ofList <| servers.toList.map fun s =>
    (s, (assignments.toList.filter fun a => a.1.table = t ∧ a.2 = s).map Prod.fst)

/-- The snapshots of those of some tables that have a region on one of the servers. -/
def snapshots (servers : ServerSet) (assignments : Std.ExtTreeMap Region ServerAddress)
    (tables : List TableName) : List (TableName × Snapshot) :=
  (tables.map fun t => (t, snapshot servers assignments t)).filter fun x =>
    x.2.toList.any fun load => !load.2.isEmpty

/-- Plans each table of some snapshots on its own. -/
def planTables : List (TableName × Snapshot) → Program (List Placement)
  | [] => pure []
  | (t, s) :: rest => do
    match ← call (.plan s) with
    | none => planTables rest
    | some moves =>
      note (.tablePlanned t moves.length)
      let others ← planTables rest
      pure (moves ++ others)

/-- Applies placements one by one. -/
def applyPlan (group : String) (plan : List Placement) : Program Unit := do
  note (.balanceStarted group plan.length)
  plan.forM fun p => do
    note (.balanceMove p)
    call (.place p)
  note (.balanceCompleted group)

/-- Plans and applies the balance of a group's tables; answers whether there was anything to
apply. -/
def balanceTables (g : Group) (name : String) (tables : List TableName)
    (assignments : Std.ExtTreeMap Region ServerAddress) : Program Bool := do
  let online ← call .online
  let plan ← planTables (snapshots (g.servers ∩ online) assignments tables)
  let ran := !plan.isEmpty
  if ran then applyPlan name plan
  hook (.postBalance name ran)
  pure ran

/-- Balances a group; answers whether any region was placed. -/
def balance (name : String) : Program Bool :=
  holding .placement do
    hook (.preBalance name)
    match ← call (.group name) with
    | none => refuse (.noSuchGroup name)
    | some g =>
      let assignments ← call .assignments
      let transitions ← call .transitions
      let tables ← owned g (g.tables.toList ++ tablesInUse assignments transitions)
      let moving := transitions.toList.filter fun x => x.2.region.table ∈ tables
      if moving ≠ [] then
        note (.regionsMoving (moving.map fun x => x.2.region.encodedName))
        pure false
      else if ← call .recovering then
        note .serversRecovering
        pure false
      else balanceTables g name tables assignments

end ServerGroups.Coordinator
