/-
ServerGroups/Change.lean

What can happen to the services of a coordinator without a call of its own:
servers come and go, regions appear and move, groups and namespaces are
stored.
-/
import ServerGroups.Site

namespace ServerGroups

/-- A change of the services from outside. -/
inductive Change where
  /-- A group is stored in place of the one of its name. -/
  | stored (group : Group)
  | online (server : ServerAddress)
  | offline (server : ServerAddress)
  /-- The recovery of dead servers starts or ends. -/
  | recovering (value : Bool)
  | region (region : Region) (server : Option ServerAddress)
  | assigned (region : Region) (server : ServerAddress)
  | moving (region : Region) (server : ServerAddress) (state : TransitionState)
  | moved (region : Region)
  /-- A region ignores the next requests to unassign it. -/
  | pinned (region : Region) (calls : Nat)
  /-- Requests to unassign a region start or cease to fail. -/
  | failing (value : Bool)
  /-- A namespace is stored in place of the one of its name. -/
  | storedSpace (space : Namespace)
  | droppedSpace (name : String)

/-- The services after a change. -/
def Site.change (site : Site) : Change → Site
  | .stored g => { site with registry := site.registry.put g }
  | .online s => { site with cluster := site.cluster.connect s }
  | .offline s => { site with cluster := site.cluster.disconnect s }
  | .recovering value => { site with cluster := { site.cluster with recovering := value } }
  | .region r s => { site with cluster := site.cluster.addRegion r s }
  | .assigned r s => { site with cluster := site.cluster.assign r s }
  | .moving r s state => { site with cluster := site.cluster.setTransition r s state }
  | .moved r => { site with cluster := site.cluster.clearTransition r }
  | .pinned r calls => { site with cluster := site.cluster.pin r calls }
  | .failing value => { site with cluster := { site.cluster with failing := value } }
  | .storedSpace n => { site with namespaces := site.namespaces.put n }
  | .droppedSpace name => { site with namespaces := site.namespaces.erase name }

/-- A table's new regions on a server, numbered from zero after a common beginning of their
names. -/
def Change.spread (t : TableName) (s : ServerAddress) (count : Nat) (stem : String) : List Change :=
  (List.range count).map fun i => .region ⟨t, stem ++ i.repr⟩ (some s)

end ServerGroups
