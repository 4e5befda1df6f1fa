/-
ServerGroups/Cluster.lean

The cluster: which servers are online, which regions there are, where each is
assigned, and which are in transition.

Assignments and pins belong to a whole region, transitions to an encoded name.
Unassigning a region takes its assignment and the transition of its name away;
a pinned region ignores as many of these requests as its pin counts.
-/
import ServerGroups.Registry

namespace ServerGroups

/-- The state of a cluster. -/
structure Cluster where
  online : ServerSet
  /-- Whether the recovery of dead servers is in progress. -/
  recovering : Bool
  /-- The regions of each table, in the order in which they were listed. -/
  regions : Std.ExtTreeMap TableName (List Region)
  assignments : Std.ExtTreeMap Region ServerAddress
  /-- The regions in transition, by encoded name. -/
  transitions : Std.ExtTreeMap String RegionTransition
  /-- How many more requests to unassign each region ignores. -/
  pins : Std.ExtTreeMap Region Nat
  /-- Whether requests to unassign a region fail. -/
  failing : Bool

namespace Cluster

/-- A cluster of some online servers and no regions. -/
def ofServers (servers : ServerSet) : Cluster where
  online := servers
  recovering := false
  regions := ∅
  assignments := ∅
  transitions := ∅
  pins := ∅
  failing := false

/-! ### Looking -/

/-- The regions listed for a table. -/
def regionsOf (c : Cluster) (t : TableName) : List Region := c.regions[t]?.getD []

/-- The regions assigned to a server, in order. -/
def regionsOn (c : Cluster) (s : ServerAddress) : List Region :=
  (c.assignments.toList.filter fun a => a.2 = s).map Prod.fst

/-- The listed regions that are assigned to no server, table by table. -/
def strays (c : Cluster) : List Region :=
  (c.regions.toList.flatMap Prod.snd).filter fun r => !c.assignments.contains r

/-! ### Changing -/

/-- Puts a server online. -/
def connect (c : Cluster) (s : ServerAddress) : Cluster :=
  { c with online := c.online.insert s }

/-- Takes a server offline. -/
def disconnect (c : Cluster) (s : ServerAddress) : Cluster :=
  { c with online := c.online.erase s }

/-- Assigns a region to a server, in place of the one it was assigned to. -/
def assign (c : Cluster) (r : Region) (s : ServerAddress) : Cluster :=
  { c with assignments := c.assignments.insert r s }

/-- Lists a region under its table, and assigns it if a server is given. -/
def addRegion (c : Cluster) (r : Region) (s : Option ServerAddress) : Cluster :=
  let listed := { c with regions := c.regions.insert r.table (c.regionsOf r.table ++ [r]) }
  match s with
  | some server => listed.assign r server
  | none => listed

/-- Records a region as in transition on a server. -/
def setTransition (c : Cluster) (r : Region) (s : ServerAddress) (state : TransitionState) :
    Cluster :=
  { c with transitions := c.transitions.insert r.encodedName ⟨r, s, state⟩ }

/-- Forgets the transition of a region's name. -/
def clearTransition (c : Cluster) (r : Region) : Cluster :=
  { c with transitions := c.transitions.erase r.encodedName }

/-- Lets a region ignore the next requests to unassign it. -/
def pin (c : Cluster) (r : Region) (calls : Nat) : Cluster :=
  { c with pins := c.pins.insert r calls }

/-- Asks for a region to be unassigned; tells whether its pin made it ignore the request. -/
def unassign (c : Cluster) (r : Region) : Except ServiceError (Bool × Cluster) :=
  if c.failing then .error (.unavailable ("cannot unassign " ++ r.text))
  else
    match c.pins[r]? with
    | some (n + 1) => .ok (true, { c with pins := c.pins.insert r n })
    | _ =>
      .ok (false, { c with
        assignments := c.assignments.erase r
        transitions := c.transitions.erase r.encodedName })

/-- Applies a placement: its region is assigned to its destination. -/
def place (c : Cluster) (p : Placement) : Cluster :=
  { c with assignments := c.assignments.insert p.region p.destination }

end Cluster

end ServerGroups
