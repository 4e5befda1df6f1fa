/-
ServerGroups/Number/Binary64.lean

Double precision numbers, computed exactly: the result of an operation is the
exact rational result, rounded to the nearest double, ties to the even
significand.

Design.  A finite double is a whole number of the smallest positive double
`2 ^ -1074`, so it is held as a sign, a significand and the exponent of the
power of two by which the significand exceeds that unit.  Every operation is
then arithmetic on natural numbers followed by one rounding of a quotient.
-/
import ServerGroups.Number.Rounding

namespace ServerGroups

/-- A double: `finite s m p` stands for `± m * 2 ^ p` units of `2 ^ -1074`. -/
inductive Binary64 where
  | finite (negative : Bool) (significand exponent : Nat)
  | infinite (negative : Bool)
  | nan (negative : Bool) (payload : Nat)
deriving DecidableEq, Repr, Inhabited

namespace Binary64

/-! ### Bits -/

/-- The double that the low 64 bits of a number encode. -/
def ofBits (bits : Nat) : Binary64 :=
  let negative := bits / Nat.pow 2 63 % 2 == 1
  let biased := bits / Nat.pow 2 52 % 2048
  let fraction := bits % Nat.pow 2 52
  if biased = 0 then finite negative fraction 0
  else if biased = 2047 then
    if fraction = 0 then infinite negative else nan negative fraction
  else finite negative (Nat.pow 2 52 + fraction) (biased - 1)

/-- The 64 bits of a double. -/
def toBits : Binary64 → Nat
  | finite negative m p =>
    negative.toNat * Nat.pow 2 63 +
      if m < Nat.pow 2 52 then m else (p + 1) * Nat.pow 2 52 + (m - Nat.pow 2 52)
  | infinite negative => negative.toNat * Nat.pow 2 63 + 2047 * Nat.pow 2 52
  | nan negative payload => negative.toNat * Nat.pow 2 63 + 2047 * Nat.pow 2 52 + payload

/-! ### Rounding -/

/-- How many of the units `2 ^ -1074` make one. -/
def one : Nat := Nat.pow 2 1074

/-- The exponent of the last place kept of `a / d` units: the least one for which 53 bits hold
the quotient. -/
def lastPlace (a d : Nat) : Nat :=
  let guess := a.log2 - (d.log2 + 52)
  if 0 < guess ∧ a < d * Nat.pow 2 (guess + 52) then guess - 1 else guess

/-- The double nearest to `± a / d` units. -/
def ofQuotient (negative : Bool) (a d : Nat) : Binary64 :=
  let p := lastPlace a d
  let m := Number.roundHalfEven a (d * Nat.pow 2 p)
  if m = Nat.pow 2 53 then
    if p < 2045 then finite negative (Nat.pow 2 52) (p + 1) else infinite negative
  else if p ≤ 2045 then finite negative m p
  else infinite negative

/-- The double nearest to a natural number. -/
def ofNat (n : Nat) : Binary64 := ofQuotient false (n * one) 1

/-! ### Arithmetic -/

/-- Whether a double is a number: neither infinite nor NaN. -/
def isFinite : Binary64 → Bool
  | finite .. => true
  | _ => false

/-- Whether a finite or infinite double is at least one. -/
def atLeastOne : Binary64 → Bool
  | finite negative m p => !negative && one ≤ m * Nat.pow 2 p
  | infinite negative => !negative
  | nan .. => false

/-- A value that is no number. -/
def undefined : Binary64 := nan false (Nat.pow 2 51)

/-- The rounded sum. -/
def add : Binary64 → Binary64 → Binary64
  | finite s m p, finite t n q =>
    let a : Int := if s then -(m * Nat.pow 2 p : Nat) else (m * Nat.pow 2 p : Nat)
    let b : Int := if t then -(n * Nat.pow 2 q : Nat) else (n * Nat.pow 2 q : Nat)
    if a + b = 0 then finite (s && t) 0 0
    else ofQuotient (decide (a + b < 0)) (a + b).natAbs 1
  | nan .., _ | _, nan .. => undefined
  | infinite s, infinite t => if s = t then infinite s else undefined
  | infinite s, finite .. => infinite s
  | finite .., infinite t => infinite t

/-- The rounded product. -/
def mul : Binary64 → Binary64 → Binary64
  | finite s m p, finite t n q => ofQuotient (s != t) (m * Nat.pow 2 p * (n * Nat.pow 2 q)) one
  | nan .., _ | _, nan .. => undefined
  | infinite s, infinite t => infinite (s != t)
  | infinite s, finite t n _ => if n = 0 then undefined else infinite (s != t)
  | finite s m _, infinite t => if m = 0 then undefined else infinite (s != t)

/-- The rounded quotient. -/
def div : Binary64 → Binary64 → Binary64
  | finite s m p, finite t n q =>
    if n = 0 then
      if m = 0 then undefined else infinite (s != t)
    else ofQuotient (s != t) (m * Nat.pow 2 p * one) (n * Nat.pow 2 q)
  | nan .., _ | _, nan .. => undefined
  | infinite _, infinite _ => undefined
  | infinite s, finite t .. => infinite (s != t)
  | finite s .., infinite t => finite (s != t) 0 0

end Binary64

end ServerGroups
