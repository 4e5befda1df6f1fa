/-
ServerGroups/Registry.lean

The registry of groups: which servers belong to which group, and which tables
are pinned to which.

Groups are kept by name and searched in name order.  A table that no group
pins is untracked.  The registry refuses what it cannot do and is then left as
it was; whether a change makes sense is for the coordinator to decide.
-/
import ServerGroups.Error

namespace ServerGroups

/-- Every group, by name. -/
structure Registry where
  groups : Std.ExtTreeMap String Group
deriving DecidableEq

namespace Registry

/-- The registry in which the group `default` holds some servers and there is no other group. -/
def ofServers (servers : ServerSet) : Registry :=
  ⟨(∅ : Std.ExtTreeMap String Group).insert defaultGroup ⟨defaultGroup, servers, ∅⟩⟩

/-- Stores a group under its name, in place of the one stored there. -/
def put (r : Registry) (g : Group) : Registry :=
  ⟨r.groups.insert g.name g⟩

/-! ### Looking up -/

/-- Every group, in name order. -/
def list (r : Registry) : List Group := r.groups.toList.map Prod.snd

/-- The group of a given name. -/
def group? (r : Registry) (name : String) : Option Group := r.groups[name]?

/-- The first group that a server belongs to. -/
def groupOfServer? (r : Registry) (s : ServerAddress) : Option Group :=
  r.list.find? fun g => g.servers.contains s

/-- The name of the first group that pins a table. -/
def groupOfTable? (r : Registry) (t : TableName) : Option String :=
  (r.list.find? fun g => g.tables.contains t).map Group.name

/-! ### Changing -/

/-- The refusal of a change to a group that is not there. -/
def absent (name : String) : ServiceError :=
  .rejected ("group " ++ name ++ " does not exist")

/-- Adds a group without members; its name must be free. -/
def addGroup (r : Registry) (name : String) : Except ServiceError Registry :=
  if r.groups.contains name then
    .error (.rejected ("group " ++ name ++ " already exists"))
  else .ok (r.put (Group.empty name))

/-- Removes a group, except the one that always exists. -/
def removeGroup (r : Registry) (name : String) : Except ServiceError Registry :=
  if name = defaultGroup then .error (.rejected "the default group cannot be removed")
  else if r.groups.contains name then .ok ⟨r.groups.erase name⟩
  else .error (absent name)

/-- Moves those of some servers that belong to one group into another; tells which they were. -/
def moveServers (r : Registry) (servers : ServerSet) (source target : String) :
    Except ServiceError (ServerSet × Registry) :=
  if !r.groups.contains target then .error (absent target)
  else
    match r.groups[source]? with
    | none => .error (absent source)
    | some g =>
      let moved := servers ∩ g.servers
      let left := r.groups.modify source fun g => { g with servers := g.servers \ moved }
      .ok (moved, ⟨left.modify target fun g => { g with servers := g.servers ∪ moved }⟩)

/-- Unpins tables everywhere. -/
def unpin (r : Registry) (tables : TableSet) : Registry :=
  ⟨r.groups.map fun _ g => { g with tables := g.tables \ tables }⟩

/-- Unpins tables everywhere and pins them to the target, if there is one. -/
def moveTables (r : Registry) (tables : TableSet) (target : Option String) :
    Except ServiceError Registry :=
  match target with
  | none => .ok (r.unpin tables)
  | some name =>
    if r.groups.contains name then
      .ok ⟨(r.unpin tables).groups.modify name fun g => { g with tables := g.tables ∪ tables }⟩
    else .error (absent name)

end Registry

end ServerGroups
