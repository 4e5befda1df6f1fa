/-
ServerGroups/Number/Shortest.lean

The decimal digits that stand for a double: as few as read back as it, and of
those the nearest to it.

Design.  The reals that round to a double form an interval that reaches half
way to each neighbour.  For one, two, three digits and so on, the two points of
the decimal grid around the double are tried; the first grid with a point in
the interval gives the digits.
-/
import ServerGroups.Number.Binary64

namespace ServerGroups.Number

/-- A decimal `digits * 10 ^ exponent`. -/
structure Decimal where
  digits : Nat
  exponent : Int
deriving DecidableEq, Repr

/-- Which of two decimals that are equally near to a double stands for it. -/
inductive Tie where
  | upper
  | even
deriving DecidableEq, Repr

/-- How many decimal digits a number has. -/
def width (n : Nat) : Nat := (Nat.toDigits 10 n).length

/-- Whether `d * 10 ^ k` rounds to the double of `m * 2 ^ p` units: it lies between the points
half way to the neighbours, which count exactly when `m` is even.  Just above a power of two the
neighbour below is only half as far. -/
def readsBack (m p d : Nat) (k : Int) : Bool :=
  let below := if m = Nat.pow 2 52 ∧ 0 < p then 4 * m - 1 else 4 * m - 2
  let low := below * Nat.pow 2 p * Nat.pow 10 (-k).toNat
  let high := (4 * m + 2) * Nat.pow 2 p * Nat.pow 10 (-k).toNat
  let x := d * Nat.pow 10 k.toNat * (4 * Binary64.one)
  if m % 2 = 0 then low ≤ x && x ≤ high else low < x && x < high

/-- The least `k` with `m * 2 ^ p` units below `10 ^ k`. -/
def scale (m p : Nat) : Int :=
  let n := m * Nat.pow 2 p
  if Binary64.one ≤ n then width (n / Binary64.one)
  else 1 - (width ((Binary64.one - 1) / n) : Int)

/-- The point of the grid of `10 ^ k` that stands for `m * 2 ^ p` units, if one reads back. -/
def onGrid (tie : Tie) (m p : Nat) (k : Int) : Option Nat :=
  let a := m * Nat.pow 2 p * Nat.pow 10 (-k).toNat
  let d := Binary64.one * Nat.pow 10 k.toNat
  let below := a / d
  let above := below + 1
  match readsBack m p below k, readsBack m p above k with
  | true, false => some below
  | false, true => some above
  | false, false => none
  | true, true =>
    match compare (2 * a) ((below + above) * d), tie with
    | .lt, _ => some below
    | .gt, _ => some above
    | .eq, .upper => some above
    | .eq, .even => some (if below % 2 = 0 then below else above)

/-- Tries `n` digits, `n + 1` digits and so on, at most `fuel` times.  Seventeen digits always
read back, so the last grid is never left empty. -/
def search (tie : Tie) (m p : Nat) : (fuel n : Nat) → Decimal
  | 0, n =>
    let k := scale m p - n
    ⟨m * Nat.pow 2 p * Nat.pow 10 (-k).toNat / (Binary64.one * Nat.pow 10 k.toNat), k⟩
  | fuel + 1, n =>
    match onGrid tie m p (scale m p - n) with
    | some d => ⟨d, scale m p - n⟩
    | none => search tie m p fuel (n + 1)

/-- Moves the zeros at the end of the digits into the exponent. -/
def Decimal.strip : (fuel : Nat) → Decimal → Decimal
  | 0, x => x
  | fuel + 1, x =>
    if x.digits % 10 = 0 ∧ x.digits ≠ 0 then
      strip fuel ⟨x.digits / 10, x.exponent + 1⟩
    else x

/-- The shortest decimal of the positive double of `m * 2 ^ p` units. -/
def shortest (tie : Tie) (m p : Nat) : Decimal :=
  (search tie m p 17 1).strip 18

end ServerGroups.Number
