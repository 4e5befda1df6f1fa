/-
ServerGroups/Wire/Identity.lean

Servers, tables, regions and placements in JSON.

Servers and tables are written as their text.  The names in a region and in
what is said of it are the fields of a record.
-/
import ServerGroups.Region
import ServerGroups.Wire.Record

namespace ServerGroups

/-- A server as its text. -/
def ServerAddress.toJson (s : ServerAddress) : Json := .string s.text

/-- The server whose text a value is. -/
def ServerAddress.ofJson? (j : Json) : Option ServerAddress := j.string?.bind ServerAddress.read?

/-- A table as its text. -/
def TableName.toJson (t : TableName) : Json := .string t.text

/-- The table whose text a value is. -/
def TableName.ofJson? (j : Json) : Option TableName := j.string?.bind TableName.read?

namespace Region

/-- A region as a record. -/
def toJson (r : Region) : Json :=
  .object [("table", r.table.toJson), ("encoded_name", .string r.encodedName)]

/-- The region that a record describes. -/
def ofJson? (j : Json) : Option Region :=
  match j.fields? ["table", "encoded_name"] 2 with
  | some [some table, some encodedName] => do
    pure ⟨← TableName.ofJson? table, ← encodedName.string?⟩
  | _ => none

end Region

namespace TransitionState

/-- A state as its name. -/
def toJson (state : TransitionState) : Json := .string state.text

/-- The state whose name a value is; the name may also be the only member of an object, over
null. -/
def ofJson? : Json → Option TransitionState
  | .string name | .object [(name, .null)] => read? name
  | _ => none

end TransitionState

namespace RegionTransition

/-- A region in transition as a record. -/
def toJson (x : RegionTransition) : Json :=
  .object [("region", x.region.toJson), ("server", x.server.toJson), ("state", x.state.toJson)]

/-- The region in transition that a record describes. -/
def ofJson? (j : Json) : Option RegionTransition :=
  match j.fields? ["region", "server", "state"] 3 with
  | some [some region, some server, some state] => do
    pure ⟨← Region.ofJson? region, ← ServerAddress.ofJson? server, ← TransitionState.ofJson? state⟩
  | _ => none

end RegionTransition

namespace Placement

/-- A placement as a record; the source of a region on no server is null. -/
def toJson (p : Placement) : Json :=
  .object [("region", p.region.toJson), ("source", .ofOption ServerAddress.toJson p.source),
    ("destination", p.destination.toJson)]

/-- The placement that a record describes. -/
def ofJson? (j : Json) : Option Placement :=
  match j.fields? ["region", "source", "destination"] 3 with
  | some [some region, source, some destination] => do
    pure ⟨← Region.ofJson? region, ← Json.optional? ServerAddress.ofJson? source,
      ← ServerAddress.ofJson? destination⟩
  | _ => none

end Placement

end ServerGroups
