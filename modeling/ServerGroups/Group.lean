/-
ServerGroups/Group.lean

A server group: a name, the servers that belong to it, and the tables pinned
to it.  The group named `default` always exists.
-/
import ServerGroups.Region

namespace ServerGroups

/-- The name of the group that always exists and cannot be removed. -/
def defaultGroup : String := "default"

/-- A named set of servers and the tables restricted to run on them. -/
structure Group where
  name : String
  servers : ServerSet
  tables : TableSet
deriving DecidableEq

namespace Group

/-- A group without members. -/
def empty (name : String) : Group := ⟨name, ∅, ∅⟩

/-- Whether this is the group that always exists. -/
def isDefault (g : Group) : Bool := g.name == defaultGroup

/-! ### Members: each change tells whether it made a difference -/

/-- Adds a server; false if it was a member already. -/
def addServer (g : Group) (s : ServerAddress) : Bool × Group :=
  (!g.servers.contains s, { g with servers := g.servers.insert s })

/-- Removes a server; false if it was no member. -/
def removeServer (g : Group) (s : ServerAddress) : Bool × Group :=
  (g.servers.contains s, { g with servers := g.servers.erase s })

/-- Pins a table; false if it was pinned here already. -/
def addTable (g : Group) (t : TableName) : Bool × Group :=
  (!g.tables.contains t, { g with tables := g.tables.insert t })

/-- Unpins a table; false if it was not pinned here. -/
def removeTable (g : Group) (t : TableName) : Bool × Group :=
  (g.tables.contains t, { g with tables := g.tables.erase t })

end Group

end ServerGroups
