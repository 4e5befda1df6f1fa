/-
ServerGroups/Proofs/Wire.lean

Commands and responses survive the wire.

    Command.restores      what is read of a command that has been written
    Response.restores     the same for responses
    survives_the_wire     both as texts, and commands whose list is left out

Names of groups are any texts.  Only the names of servers and tables can make a
command illegible, and then nothing is read of its text; there is no command
whose text is read as another one.
-/
import ServerGroups.Proofs.Wire.Records
import ServerGroups.Wire.Command

namespace ServerGroups

open Json

/-! ### Commands -/

namespace Command

/-- The text of a command can be read: so can that of each server and table in it. -/
def Legible : Command → Prop
  | getGroupOfTable table => table.Legible
  | getGroupOfServer server => server.Legible
  | moveServers servers _ => ∀ list ∈ servers, ∀ s ∈ list, s.Legible
  | moveTables tables _ => ∀ list ∈ tables, ∀ t ∈ list, t.Legible
  | _ => True

instance : DecidablePred Legible
  | getGroupOfTable table => inferInstanceAs (Decidable table.Legible)
  | getGroupOfServer server => inferInstanceAs (Decidable server.Legible)
  | moveServers servers _ => inferInstanceAs (Decidable (∀ list ∈ servers, ∀ s ∈ list, s.Legible))
  | moveTables tables _ => inferInstanceAs (Decidable (∀ list ∈ tables, ∀ t ∈ list, t.Legible))
  | getGroup _ | listGroups | addGroup _ | removeGroup _ | balanceGroup _ =>
    inferInstanceAs (Decidable True)

/-- A command about a name is read again. -/
theorem named?_record {make : String → Command} {name : String} :
    named? make (object [("name", string name)]) = some (make name) := by
  simp [named?, fields?, string?]

theorem fits_toJson (c : Command) : c.toJson.Fits depthLimit := by
  have hfits : c.toJson.Fits 2 := by cases c <;> exact fits_object (by simp)
  exact hfits.mono (by decide)

/-- A record of a command that is tagged is read by its tag. -/
theorem ofJson?_object {tag : String} {members : List (String × Json)}
    (h : (object (("op", .string tag) :: members)).Fits depthLimit)
    (hother : ∀ m ∈ members, m.1 ≠ "op") :
    ofJson? (object (("op", .string tag) :: members)) = ofRecord? tag (object members) := by
  rw [ofJson?, tagged?_object h hother]
  rfl

theorem restores : Restores toJson ofJson? Legible := by
  intro c c'
  have hfits := c.fits_toJson
  have htarget := restores_string.optional fun _ => Json.noConfusion
  cases c with
  | getGroup name =>
    rw [toJson, ofJson?_object hfits (by simp)]
    simp [ofRecord?, named?_record, Legible]
  | getGroupOfTable table =>
    rw [toJson, ofJson?_object hfits (by simp)]
    simp [ofRecord?, fields?, Option.map_eq_bind, TableName.restores.bind, Legible]
  | getGroupOfServer server =>
    rw [toJson, ofJson?_object hfits (by simp)]
    simp [ofRecord?, fields?, Option.map_eq_bind, ServerAddress.restores.bind, Legible]
  | listGroups =>
    rw [toJson, ofJson?_object hfits (by simp)]
    simp [ofRecord?, fields?, Legible]
  | addGroup name =>
    rw [toJson, ofJson?_object hfits (by simp)]
    simp [ofRecord?, named?_record, Legible]
  | removeGroup name =>
    rw [toJson, ofJson?_object hfits (by simp)]
    simp [ofRecord?, named?_record, Legible]
  | moveServers servers target =>
    have hservers := ServerSet.restores.optional fun _ => Json.noConfusion
    rw [toJson, ofJson?_object hfits (by simp)]
    simp [ofRecord?, fields?, List.lookup_cons, hservers.bind, htarget.bind, Legible]
  | moveTables tables target =>
    have htables := TableSet.restores.optional fun _ => Json.noConfusion
    rw [toJson, ofJson?_object hfits (by simp)]
    simp [ofRecord?, fields?, List.lookup_cons, htables.bind, htarget.bind, Legible]
  | balanceGroup name =>
    rw [toJson, ofJson?_object hfits (by simp)]
    simp [ofRecord?, named?_record, Legible]

end Command

/-! ### Responses -/

namespace Response

/-- The text of a response can be read: so can that of each group in it. -/
def Legible : Response → Prop
  | group g => ∀ found ∈ g, found.Legible
  | groups gs => ∀ g ∈ gs, g.Legible
  | _ => True

instance : DecidablePred Legible
  | group g => inferInstanceAs (Decidable (∀ found ∈ g, found.Legible))
  | groups gs => inferInstanceAs (Decidable (∀ g ∈ gs, g.Legible))
  | done | balanced _ => inferInstanceAs (Decidable True)

theorem fits_toJson (r : Response) : r.toJson.Fits depthLimit := by
  have hfits : r.toJson.Fits 4 := by
    cases r with
    | done | balanced ran => exact fits_object (by simp)
    | group g => exact fits_object (by simp [Fits.mono Group.fits_toJson])
    | groups gs =>
      have hgroups : (array (gs.map Group.toJson)).Fits 3 := fits_array (by simp)
      exact fits_object (by simp [hgroups])
  exact hfits.mono (by decide)

/-- A record of a response that is tagged is read by its tag. -/
theorem ofJson?_object {tag : String} {members : List (String × Json)}
    (h : (object (("result", .string tag) :: members)).Fits depthLimit)
    (hother : ∀ m ∈ members, m.1 ≠ "result") :
    ofJson? (object (("result", .string tag) :: members)) = ofRecord? tag (object members) := by
  rw [ofJson?, tagged?_object h hother]
  rfl

theorem restores : Restores toJson ofJson? Legible := by
  intro r r'
  have hfits := r.fits_toJson
  cases r with
  | done =>
    rw [toJson, ofJson?_object hfits (by simp)]
    simp [ofRecord?, fields?, Legible]
  | group g =>
    have hgroup := Group.restores.optional fun _ => Json.noConfusion
    rw [toJson, ofJson?_object hfits (by simp)]
    simp [ofRecord?, fields?, Option.map_eq_bind, hgroup.bind, Legible]
  | groups gs =>
    rw [toJson, ofJson?_object hfits (by simp)]
    simp [ofRecord?, fields?, Option.map_eq_bind, Group.restores.list.bind, Legible]
  | balanced ran =>
    rw [toJson, ofJson?_object hfits (by simp)]
    simp [ofRecord?, fields?, bool?, Legible]

end Response

/-! ### Texts -/

theorem Json.read?_text_bind {α : Type} {v : Json} (h : v.Fits depthLimit) (f : Json → Option α) :
    (read? v.text).bind f = f v := by
  rw [read?_text h.plain, Option.bind_some]

/-- A list of servers that is left out is read as one that is null. -/
theorem Command.decode?_without_servers (target : Option String) :
    decode? (object [("op", .string "move_servers"),
      ("target_group", .ofOption .string target)]).text = some (.moveServers none target) := by
  have hfits : (object [("op", .string "move_servers"),
      ("target_group", .ofOption .string target)]).Fits depthLimit :=
    (fits_object (by simp) : Fits 1 _).mono (by decide)
  have htarget := restores_string.optional fun _ => Json.noConfusion
  rw [decode?, read?_text_bind hfits, ofJson?_object hfits (by simp)]
  simp [ofRecord?, fields?, List.lookup_cons, htarget.bind]

/-- A list of tables that is left out is read as one that is null. -/
theorem Command.decode?_without_tables (target : Option String) :
    decode? (object [("op", .string "move_tables"),
      ("target_group", .ofOption .string target)]).text = some (.moveTables none target) := by
  have hfits : (object [("op", .string "move_tables"),
      ("target_group", .ofOption .string target)]).Fits depthLimit :=
    (fits_object (by simp) : Fits 1 _).mono (by decide)
  have htarget := restores_string.optional fun _ => Json.noConfusion
  rw [decode?, read?_text_bind hfits, ofJson?_object hfits (by simp)]
  simp [ofRecord?, fields?, List.lookup_cons, htarget.bind]

/-- **Round trip.**  The text of a command or a response is read as this command or response if each
server in it has a host and each table in it has two parts without a colon, and otherwise it is not
read at all.  A list that a command does not give is not an empty one: it is written as null, and is
not given either where the text leaves it out. -/
theorem survives_the_wire :
    (∀ c : Command, Command.decode? c.encode = if c.Legible then some c else none) ∧
    (∀ r : Response, Response.decode? r.encode = if r.Legible then some r else none) ∧
    ∀ target : Option String,
      Command.decode? (object [("op", .string "move_servers"),
        ("target_group", .ofOption .string target)]).text = some (.moveServers none target) ∧
      Command.decode? (object [("op", .string "move_tables"),
        ("target_group", .ofOption .string target)]).text = some (.moveTables none target) := by
  refine ⟨fun c => ?_, fun r => ?_, fun target =>
    ⟨Command.decode?_without_servers target, Command.decode?_without_tables target⟩⟩
  · rw [Command.decode?, Command.encode, Json.read?_text_bind c.fits_toJson]
    exact Command.restores.eq_ite c
  · rw [Response.decode?, Response.encode, Json.read?_text_bind r.fits_toJson]
    exact Response.restores.eq_ite r

/-- A colon in a namespace cannot be told from the one behind it. -/
example : Command.decode? (Command.getGroupOfTable ⟨"a:b", "t"⟩).encode = none := by
  decide +kernel

end ServerGroups
