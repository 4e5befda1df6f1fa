/-
ServerGroups/Wire/Group.lean

Groups and namespaces in JSON.

Sets are written as arrays in their order and read from arrays in any order,
with repetitions.  The properties of a namespace are an object; of a property
that is given twice the last value counts.
-/
import ServerGroups.Namespace
import ServerGroups.Wire.Identity

namespace ServerGroups

/-- A set of servers as an array. -/
def ServerSet.toJson (s : ServerSet) : Json := .array (s.toList.map ServerAddress.toJson)

/-- The servers that an array lists. -/
def ServerSet.ofJson? (j : Json) : Option ServerSet :=
  (j.list? ServerAddress.ofJson?).map fun l => .ofList l

/-- A set of tables as an array. -/
def TableSet.toJson (s : TableSet) : Json := .array (s.toList.map TableName.toJson)

/-- The tables that an array lists. -/
def TableSet.ofJson? (j : Json) : Option TableSet :=
  (j.list? TableName.ofJson?).map fun l => .ofList l

namespace Group

/-- A group as a record. -/
def toJson (g : Group) : Json :=
  .object [("name", .string g.name), ("servers", g.servers.toJson), ("tables", g.tables.toJson)]

/-- The group that a record describes. -/
def ofJson? (j : Json) : Option Group :=
  match j.fields? ["name", "servers", "tables"] 3 with
  | some [some name, some servers, some tables] => do
    pure ⟨← name.string?, ← ServerSet.ofJson? servers, ← TableSet.ofJson? tables⟩
  | _ => none

end Group

namespace Namespace

/-- Properties as an object. -/
def propertiesToJson (properties : Std.ExtTreeMap String String) : Json :=
  .object (properties.toList.map fun x => (x.1, .string x.2))

/-- The properties that an object lists. -/
def properties? : Json → Option (Std.ExtTreeMap String String)
  | .object members => do
    let properties ← members.mapM fun m => m.2.string?.map fun value => (m.1, value)
    pure (.ofList properties)
  | _ => none

/-- A namespace as a record. -/
def toJson (n : Namespace) : Json :=
  .object [("name", .string n.name), ("configuration", propertiesToJson n.configuration)]

/-- The namespace that a record describes. -/
def ofJson? (j : Json) : Option Namespace :=
  match j.fields? ["name", "configuration"] 2 with
  | some [some name, some configuration] => do
    pure ⟨← name.string?, ← properties? configuration⟩
  | _ => none

end Namespace

end ServerGroups
