/-
ServerGroups/Wire/Record.lean

Reading values out of JSON, and records of named fields.

A record is an object with a member for each field, in any order, or an array
of the values in the order of the fields.  A tagged record has one more field,
which tells what kind of record it is.

Design.  Both forms of a record are brought to one list with a place for every
field, so the reader of a type matches on that list and says once which fields
it can do without.
-/
import ServerGroups.Json.Printer
import ServerGroups.Json.Reader

namespace ServerGroups.Json

/-! ### Single values -/

/-- The string that a value is. -/
def string? : Json → Option String
  | string s => some s
  | _ => none

/-- The truth value that a value is. -/
def bool? : Json → Option Bool
  | bool b => some b
  | _ => none

/-- The whole number below a limit that a value is. -/
def natural? (limit : Nat) : Json → Option Nat
  | natural n => if n < limit then some n else none
  | _ => none

/-- The double nearest to the number that a value is. -/
def real? : Json → Option Binary64
  | natural n => some (.ofNat n)
  | negative n => some (minus (.ofNat n))
  | real x => some x
  | _ => none

/-- The items of an array, each read in the same way. -/
def list? {α : Type} (read : Json → Option α) : Json → Option (List α)
  | array items => items.mapM read
  | _ => none

/-- A value that may be left out or null. -/
def optional? {α : Type} (read : Json → Option α) : Option Json → Option (Option α)
  | none | some null => some none
  | some j => (read j).map some

/-- A value or null. -/
def ofOption {α : Type} (write : α → Json) : Option α → Json
  | none => null
  | some a => write a

/-! ### Records -/

/-- The values given for the fields of a record, field by field.  An object gives them by name,
each at most once, and may hold more; an array gives them in the order of the fields, and at least
`fewest` of them. -/
def fields? (names : List String) (fewest : Nat) : Json → Option (List (Option Json))
  | object members =>
    if ((members.map Prod.fst).filter (· ∈ names)).Nodup then
      some (names.map fun name => members.lookup name)
    else none
  | array items =>
    if fewest ≤ items.length ∧ items.length ≤ names.length then
      some (items.map some ++ List.replicate (names.length - items.length) none)
    else none
  | _ => none

/-- How deep a tagged record may be nested. -/
def depthLimit : Nat := 127

/-- The tag of a tagged record and the record without it.  An object has the tag under a given
name, anywhere but only once; an array has it in front.  Everything in a tagged record must be
usable, even what no field asks for. -/
def tagged? (name : String) (j : Json) : Option (String × Json) :=
  if j.isReadable ∧ j.depth ≤ depthLimit then
    match j with
    | object members =>
      match members.filter fun m => m.1 = name with
      | [(_, string tag)] => some (tag, object (members.filter fun m => m.1 ≠ name))
      | _ => none
    | array (string tag :: rest) => some (tag, array rest)
    | _ => none
  else none

end ServerGroups.Json
