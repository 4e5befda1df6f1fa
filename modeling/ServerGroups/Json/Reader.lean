/-
ServerGroups/Json/Reader.lean

Reading JSON text.

Blanks may stand around values, commas, colons and brackets.  A string may
name a character by its escape; a character past the first 65536 is named by
two, and half of such a pair names none.

Design.  The reader recurses on a bound that every value and every item uses
up by one, so a bound above the length of the text is never reached.
-/
import ServerGroups.Json.Number

namespace ServerGroups.Json

/-! ### Strings -/

/-- What stands for a character in a string: the character, or the number in its escape. -/
inductive Piece where
  | char (c : Char)
  | unit (n : Nat)

/-- Whether a number is the first half of a pair. -/
def isHigh (n : Nat) : Bool := 0xd800 ≤ n && n < 0xdc00

/-- Whether a number is the second half of a pair. -/
def isLow (n : Nat) : Bool := 0xdc00 ≤ n && n < 0xe000

/-- The characters that the pieces of a string name, if no half of a pair stands alone. -/
def assemble : List Piece → Option (List Char)
  | [] => some []
  | .char c :: rest => (assemble rest).map (c :: ·)
  | .unit n :: rest =>
    if isHigh n then
      match rest with
      | .unit m :: rest =>
        if isLow m then
          (assemble rest).map (Char.ofNat (0x10000 + (n - 0xd800) * 0x400 + (m - 0xdc00)) :: ·)
        else none
      | _ => none
    else if isLow n then none
    else (assemble rest).map (Char.ofNat n :: ·)

/-- The value of a hexadecimal digit. -/
def hexDigit? (c : Char) : Option Nat :=
  if '0' ≤ c ∧ c ≤ '9' then some (c.toNat - '0'.toNat)
  else if 'a' ≤ c ∧ c ≤ 'f' then some (c.toNat - 'a'.toNat + 10)
  else if 'A' ≤ c ∧ c ≤ 'F' then some (c.toNat - 'A'.toNat + 10)
  else none

/-- The value of four hexadecimal digits. -/
def hexUnit? (a b c d : Char) : Option Nat :=
  match hexDigit? a, hexDigit? b, hexDigit? c, hexDigit? d with
  | some a, some b, some c, some d => some (((a * 16 + b) * 16 + c) * 16 + d)
  | _, _, _, _ => none

/-- The character that a backslash and a letter stand for. -/
def escaped? : Char → Option Char
  | '"' => some '"'
  | '\\' => some '\\'
  | '/' => some '/'
  | 'b' => some '\x08'
  | 'f' => some '\x0c'
  | 'n' => some '\n'
  | 'r' => some '\r'
  | 't' => some '\t'
  | _ => none

/-- The pieces of a string after its opening quote, and the text after its closing one. -/
def pieces? : List Char → Option (List Piece × List Char)
  | [] => none
  | '"' :: r => some ([], r)
  | '\\' :: 'u' :: a :: b :: c :: d :: r =>
    match hexUnit? a b c d, pieces? r with
    | some n, some (ps, r) => some (.unit n :: ps, r)
    | _, _ => none
  | '\\' :: e :: r =>
    match escaped? e, pieces? r with
    | some c, some (ps, r) => some (.char c :: ps, r)
    | _, _ => none
  | c :: r =>
    if c = '\\' ∨ c.val < 0x20 then none
    else
      match pieces? r with
      | some (ps, r) => some (.char c :: ps, r)
      | none => none

/-- The string after its opening quote, none if it names no text, and the text after it. -/
def stringBody? (cs : List Char) : Option (Option String × List Char) :=
  (pieces? cs).map fun (ps, r) => ((assemble ps).map String.ofList, r)

/-! ### Values -/

/-- Whether a character may stand around values. -/
def isBlank (c : Char) : Bool := c = ' ' || c = '\n' || c = '\t' || c = '\r'

/-- Skips blanks. -/
def skip (cs : List Char) : List Char := cs.dropWhile isBlank

/-- The value of a string, if it names a text. -/
def ofString : Option String → Json
  | some s => string s
  | none => unreadable

/-- The value of an object; it is of no use if one of its names is none. -/
def ofMembers (members : List (Option String × Json)) : Json :=
  match members.mapM fun m => m.1.map fun k => (k, m.2) with
  | some members => object members
  | none => unreadable

mutual

/-- The value at the beginning of a text, and the text after it. -/
def value? : (bound : Nat) → List Char → Option (Json × List Char)
  | 0, _ => none
  | bound + 1, cs =>
    match skip cs with
    | '"' :: r => (stringBody? r).map fun (s, r) => (ofString s, r)
    | '[' :: r =>
      match skip r with
      | ']' :: r => some (array [], r)
      | _ => (items? bound r).map fun (items, r) => (array items, r)
    | '\x7b' :: r =>
      match skip r with
      | '\x7d' :: r => some (object [], r)
      | _ => (members? bound r).map fun (members, r) => (ofMembers members, r)
    | 'n' :: 'u' :: 'l' :: 'l' :: r => some (null, r)
    | 't' :: 'r' :: 'u' :: 'e' :: r => some (bool true, r)
    | 'f' :: 'a' :: 'l' :: 's' :: 'e' :: r => some (bool false, r)
    | cs => number? cs

/-- The items of an array up to its end, and the text after it. -/
def items? : (bound : Nat) → List Char → Option (List Json × List Char)
  | 0, _ => none
  | bound + 1, cs =>
    match value? bound cs with
    | none => none
    | some (v, r) =>
      match skip r with
      | ',' :: r => (items? bound r).map fun (items, r) => (v :: items, r)
      | ']' :: r => some ([v], r)
      | _ => none

/-- The members of an object up to its end, and the text after it. -/
def members? : (bound : Nat) → List Char → Option (List (Option String × Json) × List Char)
  | 0, _ => none
  | bound + 1, cs =>
    match skip cs with
    | '"' :: r =>
      match stringBody? r with
      | none => none
      | some (k, r) =>
        match skip r with
        | ':' :: r =>
          match value? bound r with
          | none => none
          | some (v, r) =>
            match skip r with
            | ',' :: r => (members? bound r).map fun (members, r) => ((k, v) :: members, r)
            | '\x7d' :: r => some ([(k, v)], r)
            | _ => none
        | _ => none
    | _ => none

end

/-- The value that a whole text stands for, with nothing but blanks around it. -/
def read? (s : String) : Option Json :=
  match value? (s.toList.length + 1) s.toList with
  | some (v, r) => if skip r = [] then some v else none
  | none => none

end ServerGroups.Json
