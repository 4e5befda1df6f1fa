/-
ServerGroups/Wire/Command.lean

Commands and responses in JSON.

Both are tagged records.  A list or a target that a command does not give is
null or left out.
-/
import ServerGroups.Command
import ServerGroups.Wire.Group

namespace ServerGroups

namespace Command

/-- A command as a tagged record. -/
def toJson : Command → Json
  | getGroup name => .object [("op", .string "get_group"), ("name", .string name)]
  | getGroupOfTable table =>
    .object [("op", .string "get_group_of_table"), ("table", table.toJson)]
  | getGroupOfServer server =>
    .object [("op", .string "get_group_of_server"), ("server", server.toJson)]
  | listGroups => .object [("op", .string "list_groups")]
  | addGroup name => .object [("op", .string "add_group"), ("name", .string name)]
  | removeGroup name => .object [("op", .string "remove_group"), ("name", .string name)]
  | moveServers servers target =>
    .object [("op", .string "move_servers"), ("servers", .ofOption ServerSet.toJson servers),
      ("target_group", .ofOption .string target)]
  | moveTables tables target =>
    .object [("op", .string "move_tables"), ("tables", .ofOption TableSet.toJson tables),
      ("target_group", .ofOption .string target)]
  | balanceGroup name => .object [("op", .string "balance_group"), ("name", .string name)]

/-- The command about a name that a record holds. -/
def named? (make : String → Command) (j : Json) : Option Command :=
  match j.fields? ["name"] 1 with
  | some [some name] => name.string?.map make
  | _ => none

/-- The command of a given tag that a record describes. -/
def ofRecord? (tag : String) (j : Json) : Option Command :=
  if tag = "get_group" then named? getGroup j
  else if tag = "get_group_of_table" then
    match j.fields? ["table"] 1 with
    | some [some table] => (TableName.ofJson? table).map getGroupOfTable
    | _ => none
  else if tag = "get_group_of_server" then
    match j.fields? ["server"] 1 with
    | some [some server] => (ServerAddress.ofJson? server).map getGroupOfServer
    | _ => none
  else if tag = "list_groups" then (j.fields? [] 0).map fun _ => listGroups
  else if tag = "add_group" then named? addGroup j
  else if tag = "remove_group" then named? removeGroup j
  else if tag = "move_servers" then
    match j.fields? ["servers", "target_group"] 0 with
    | some [servers, target] => do
      pure (moveServers (← Json.optional? ServerSet.ofJson? servers)
        (← Json.optional? Json.string? target))
    | _ => none
  else if tag = "move_tables" then
    match j.fields? ["tables", "target_group"] 0 with
    | some [tables, target] => do
      pure (moveTables (← Json.optional? TableSet.ofJson? tables)
        (← Json.optional? Json.string? target))
    | _ => none
  else if tag = "balance_group" then named? balanceGroup j
  else none

/-- The command that a tagged record describes. -/
def ofJson? (j : Json) : Option Command := do
  let (tag, record) ← j.tagged? "op"
  ofRecord? tag record

/-- A command as JSON text. -/
def encode (c : Command) : String := c.toJson.text

/-- The command that a JSON text describes. -/
def decode? (s : String) : Option Command := (Json.read? s).bind ofJson?

end Command

namespace Response

/-- A response as a tagged record. -/
def toJson : Response → Json
  | done => .object [("result", .string "done")]
  | group g => .object [("result", .string "group"), ("group", .ofOption Group.toJson g)]
  | groups gs => .object [("result", .string "groups"), ("groups", .array (gs.map Group.toJson))]
  | balanced ran => .object [("result", .string "balanced"), ("ran", .bool ran)]

/-- The response of a given tag that a record describes. -/
def ofRecord? (tag : String) (j : Json) : Option Response :=
  if tag = "done" then (j.fields? [] 0).map fun _ => done
  else if tag = "group" then
    match j.fields? ["group"] 1 with
    | some [g] => (Json.optional? Group.ofJson? g).map group
    | _ => none
  else if tag = "groups" then
    match j.fields? ["groups"] 1 with
    | some [some gs] => (gs.list? Group.ofJson?).map groups
    | _ => none
  else if tag = "balanced" then
    match j.fields? ["ran"] 1 with
    | some [some ran] => ran.bool?.map balanced
    | _ => none
  else none

/-- The response that a tagged record describes. -/
def ofJson? (j : Json) : Option Response := do
  let (tag, record) ← j.tagged? "result"
  ofRecord? tag record

/-- A response as JSON text. -/
def encode (r : Response) : String := r.toJson.text

/-- The response that a JSON text describes. -/
def decode? (s : String) : Option Response := (Json.read? s).bind ofJson?

end Response

end ServerGroups
