/-
ServerGroups/Json/Value.lean

JSON values as they are read: members in the order of the text, repeated names
included, and numbers told apart by the way they are written.
-/
import ServerGroups.Number.Binary64

namespace ServerGroups

/-- A JSON value. -/
inductive Json where
  | null
  | bool (value : Bool)
  /-- A whole number from 0 to `2 ^ 64 - 1`. -/
  | natural (value : Nat)
  /-- The negative of a whole number from 1 to `2 ^ 63`. -/
  | negative (value : Nat)
  /-- Any other number. -/
  | real (value : Binary64)
  | string (value : String)
  | array (items : List Json)
  | object (members : List (String × Json))
  /-- Well-formed text that stands for no value: a number past all doubles, or a string with half
  of a surrogate pair.  It can be skipped, not used. -/
  | unreadable

namespace Json

mutual

/-- Whether a value can be used throughout. -/
def isReadable : Json → Bool
  | array items => areReadable items
  | object members => membersReadable members
  | unreadable => false
  | _ => true

/-- Whether some values can be used throughout. -/
def areReadable : List Json → Bool
  | [] => true
  | v :: rest => v.isReadable && areReadable rest

/-- Whether the values of some members can be used throughout. -/
def membersReadable : List (String × Json) → Bool
  | [] => true
  | (_, v) :: rest => v.isReadable && membersReadable rest

end

mutual

/-- How deep arrays and objects are nested. -/
def depth : Json → Nat
  | array items => itemsDepth items + 1
  | object members => membersDepth members + 1
  | _ => 0

/-- The greatest depth of some values. -/
def itemsDepth : List Json → Nat
  | [] => 0
  | v :: rest => max v.depth (itemsDepth rest)

/-- The greatest depth of the values of some members. -/
def membersDepth : List (String × Json) → Nat
  | [] => 0
  | (_, v) :: rest => max v.depth (membersDepth rest)

end

end Json

end ServerGroups
