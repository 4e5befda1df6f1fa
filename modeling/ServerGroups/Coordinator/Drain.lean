/-
ServerGroups/Coordinator/Drain.lean

Draining moved servers: the regions on them that do not belong to the target
group are unassigned, pass after pass, until none is left.

Nothing tells when a region has gone, so every pass looks at the cluster again
and repeats its requests; a request that was lost does no harm.  A server on
which a pass finds nothing to unassign is drained and not looked at again.
-/
import ServerGroups.Config
import ServerGroups.Coordinator.Ownership

namespace ServerGroups

/-- How far a move has come. -/
inductive Phase where
  /-- The registry holds the new membership. -/
  | mutated
  /-- The servers are being drained. -/
  | draining
  /-- Every server is drained. -/
  | settled
  /-- The drain failed. -/
  | failed
deriving DecidableEq, Repr

/-- The name of a phase. -/
def Phase.text : Phase → String
  | mutated => "Mutated"
  | draining => "Draining"
  | settled => "Settled"
  | failed => "Failed"

/-- A move of servers and the state of its drain. -/
structure Move where
  servers : ServerSet
  source : String
  target : String
  /-- The servers that are not drained yet. -/
  pending : List ServerAddress
  /-- The wait after the next pass. -/
  interval : Duration
  /-- How many passes there have been. -/
  passes : Nat
  /-- When the next pass is due, in milliseconds. -/
  wake : Nat
  phase : Phase
  /-- How the drain ended, if it has. -/
  ending : Option Ending

/-- A move that starts now. -/
def Move.start (c : Config) (servers : ServerSet) (source target : String) (now : Nat) : Move where
  servers := servers
  source := source
  target := target
  pending := servers.toList
  interval := c.drainInterval
  passes := 0
  wake := now
  phase := .mutated
  ending := none

/-- The move while a pass of its drain runs. -/
def Move.drain (m : Move) : Move := { m with phase := .draining }

/-- The move after a pass that found every server drained. -/
def Move.settle (m : Move) : Move :=
  { m with pending := [], passes := m.passes + 1, phase := .settled }

namespace Coordinator

open Program

/-- The regions assigned to a server or in transition on it, in region order, but those of the
catalog table last: unassigning other regions may still write to the catalog. -/
def regionsOnServer (catalog : TableName) (s : ServerAddress)
    (assignments : Std.ExtTreeMap Region ServerAddress)
    (transitions : Std.ExtTreeMap String RegionTransition) : List Region :=
  let assigned := (assignments.toList.filter fun a => a.2 = s).map Prod.fst
  let moving := (transitions.toList.filter fun x => x.2.server = s).map fun x => x.2.region
  let regions := (Std.ExtTreeSet.ofList (assigned ++ moving)).toList
  regions.filter (fun r => r.table ≠ catalog) ++ regions.filter (fun r => r.table = catalog)

/-- Unassigns what does not belong on a server, which is every region of a table that is not kept;
answers whether there was anything. -/
def drainServer (m : Move) (regions : List Region) (kept : List TableName) (s : ServerAddress) :
    Program Bool := do
  note (.unassigning regions.length s m.target)
  let misplaced := regions.filter fun r => r.table ∉ kept
  misplaced.forM fun r => call (.unassign r)
  if misplaced.isEmpty then
    note (.drained s (m.passes + 1))
    pure false
  else pure true

/-- Drains servers one after the other; answers those that had anything to unassign. -/
def drainServers (m : Move) (regionsOn : ServerAddress → List Region) (kept : List TableName) :
    List ServerAddress → Program (List ServerAddress)
  | [] => pure []
  | s :: rest => do
    let busy ← drainServer m (regionsOn s) kept s
    let others ← drainServers m regionsOn kept rest
    pure (if busy then s :: others else others)

/-- One pass of a drain; answers the servers that are not drained yet. -/
def drainPass (c : Config) (m : Move) : Program (List ServerAddress) := do
  let assignments ← call .assignments
  let transitions ← call .transitions
  let kept ← match ← call (.group m.target) with
    | some g => owned g (tablesInUse assignments transitions)
    | none => pure []
  drainServers m (fun s => regionsOnServer c.metaTable s assignments transitions) kept m.pending

/-- What is left to do once every server is drained. -/
def finishMove (m : Move) : Program Unit := do
  hook (.postMoveServers m.servers m.target)
  note (.moveDone m.source m.target)

end Coordinator

end ServerGroups
