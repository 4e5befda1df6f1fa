/-
ServerGroups/Json/Number.lean

Reading JSON numbers.

A whole number that fits 64 bits is taken as it is.  Of any other number the
leading digits are kept as long as they fit 64 bits; they are rounded to a
double, which is then multiplied or divided by a power of ten that is rounded
to a double itself.
-/
import ServerGroups.Json.Value

namespace ServerGroups.Json

/-- The largest number of 64 bits. -/
def wordMax : Nat := Nat.pow 2 64 - 1

/-- Appends digits to a number as long as it fits 64 bits; the number, and the digits left over. -/
def keepDigits : (kept : Nat) → List Char → Nat × List Char
  | kept, [] => (kept, [])
  | kept, c :: rest =>
    let longer := kept * 10 + (c.toNat - '0'.toNat)
    if longer ≤ wordMax then keepDigits longer rest else (kept, c :: rest)

/-- `kept * 10 ^ exponent` as a double, in at most two roundings of its power of ten; none if it
exceeds every double. -/
def scaled (kept : Nat) (exponent : Int) : Option Binary64 :=
  let x := Binary64.ofNat kept
  let power (n : Nat) := Binary64.ofNat (Nat.pow 10 n)
  if kept = 0 then some x
  else if 308 < exponent then none
  else if 0 ≤ exponent then
    let y := x.mul (power exponent.toNat)
    if y.isFinite then some y else none
  else if -308 ≤ exponent then some (x.div (power (-exponent).toNat))
  else if -616 ≤ exponent then some ((x.div (power 308)).div (power (-exponent - 308).toNat))
  else some (.finite false 0 0)

/-- A double with a minus sign. -/
def minus : Binary64 → Binary64
  | .finite below m p => .finite (!below) m p
  | .infinite below => .infinite (!below)
  | x => x

/-- A number that has a fraction or an exponent, or does not fit 64 bits. -/
def realOf (isNegative : Bool) (whole fraction : List Char) (exponent : Int) : Json :=
  let (kept, dropped) := keepDigits 0 whole
  let (kept, left) := keepDigits kept fraction
  match scaled kept (dropped.length - (fraction.length - left.length : Nat) + exponent) with
  | some x => real (if isNegative then minus x else x)
  | none => unreadable

/-- A number without fraction and exponent. -/
def wholeOf (isNegative : Bool) (digits : List Char) : Json :=
  let n := Nat.ofDigitChars 10 digits 0
  if isNegative then
    if 1 ≤ n ∧ n ≤ Nat.pow 2 63 then negative n else realOf true digits [] 0
  else if n ≤ wordMax then natural n
  else realOf false digits [] 0

/-- The digits at the beginning of a text, which must be some, and the text after them. -/
def digits? (cs : List Char) : Option (List Char × List Char) :=
  match cs.takeWhile Char.isDigit with
  | [] => none
  | ds => some (ds, cs.dropWhile Char.isDigit)

/-- The fraction at the beginning of a text, if there is one: empty if there is none. -/
def fraction? : List Char → Option (List Char × List Char)
  | '.' :: r => digits? r
  | cs => some ([], cs)

/-- The exponent at the beginning of a text, if there is one. -/
def exponent? : List Char → Option (Option Int × List Char)
  | c :: r =>
    if c = 'e' ∨ c = 'E' then
      let (isNegative, r) := match r with
        | '+' :: r => (false, r)
        | '-' :: r => (true, r)
        | _ => (false, r)
      (digits? r).map fun (ds, r) =>
        let n : Int := Nat.ofDigitChars 10 ds 0
        (some (if isNegative then -n else n), r)
    else some (none, c :: r)
  | [] => some (none, [])

/-- The number after the sign at the beginning of a text, and the text after it. -/
def unsigned? (isNegative : Bool) (cs : List Char) : Option (Json × List Char) :=
  match digits? cs with
  | none => none
  | some (whole, r) =>
    if whole.head? = some '0' ∧ 1 < whole.length then none
    else
      match fraction? r with
      | none => none
      | some (fraction, r) =>
        match exponent? r with
        | none => none
        | some (exponent, r) =>
          if fraction = [] ∧ exponent = none then some (wholeOf isNegative whole, r)
          else some (realOf isNegative whole fraction (exponent.getD 0), r)

/-- The number at the beginning of a text, and the text after it. -/
def number? : List Char → Option (Json × List Char)
  | '-' :: r => unsigned? true r
  | cs => unsigned? false cs

end ServerGroups.Json
