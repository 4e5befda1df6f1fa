/-
ServerGroups/Duration.lean

Lengths of time in whole nanoseconds, below `2 ^ 64` seconds.

As a number of seconds a duration is a double: its whole seconds and its
nanoseconds divided by a thousand million, each rounded, and their rounded sum.
Back from seconds it is the nearest nanosecond, ties to even; nothing below
zero, nothing infinite and nothing from `2 ^ 64` seconds on is a duration.
-/
import ServerGroups.Number.Positional

namespace ServerGroups

/-- The first number of nanoseconds that is no duration. -/
def durationLimit : Nat := Nat.pow 2 64 * Nat.pow 10 9

/-- A length of time. -/
structure Duration where
  nanoseconds : Nat
  lt_limit : nanoseconds < durationLimit := by decide
deriving DecidableEq

namespace Duration

/-- The duration of a number of nanoseconds, if it is below the limit. -/
def ofNanoseconds? (n : Nat) : Option Duration :=
  if h : n < durationLimit then some ⟨n, h⟩ else none

/-- The duration of a number of seconds and of nanoseconds, which may exceed a second. -/
def ofParts? (seconds nanoseconds : Nat) : Option Duration :=
  ofNanoseconds? (seconds * Nat.pow 10 9 + nanoseconds)

/-- The whole seconds. -/
def seconds (d : Duration) : Nat := d.nanoseconds / Nat.pow 10 9

/-- The nanoseconds past the whole seconds. -/
def subsecond (d : Duration) : Nat := d.nanoseconds % Nat.pow 10 9

/-- The whole milliseconds that a wait of this length takes: a started one counts. -/
def waitMilliseconds (d : Duration) : Nat := (d.nanoseconds + 999999) / Nat.pow 10 6

/-- The shorter of two durations. -/
def min (a b : Duration) : Duration := if a.nanoseconds ≤ b.nanoseconds then a else b

/-! ### Seconds as a double -/

/-- The length in seconds. -/
def toSeconds (d : Duration) : Binary64 :=
  (Binary64.ofNat d.seconds).add ((Binary64.ofNat d.subsecond).div (Binary64.ofNat (Nat.pow 10 9)))

/-- The duration nearest to a number of seconds. -/
def ofSeconds? : Binary64 → Option Duration
  | .finite negative m p =>
    if negative ∧ m ≠ 0 then none
    else ofNanoseconds? (Number.roundHalfEven (m * Nat.pow 2 p * Nat.pow 10 9) Binary64.one)
  | _ => none

/-! ### Text -/

/-- A whole number and the digits of a fraction of `places` places, without the zeros that end
it. -/
def decimalText (whole fraction places : Nat) : String :=
  if fraction = 0 then whole.repr
  else
    let digits := Nat.toDigits 10 fraction
    let padded := List.replicate (places - digits.length) '0' ++ digits
    whole.repr ++ "." ++ String.ofList (padded.reverse.dropWhile (· == '0')).reverse

/-- The length in the largest of the units second, millisecond, microsecond and nanosecond that
does not exceed it. -/
def text (d : Duration) : String :=
  if 0 < d.seconds then decimalText d.seconds d.subsecond 9 ++ "s"
  else if Nat.pow 10 6 ≤ d.nanoseconds then
    decimalText (d.nanoseconds / Nat.pow 10 6) (d.nanoseconds % Nat.pow 10 6) 6 ++ "ms"
  else if Nat.pow 10 3 ≤ d.nanoseconds then
    decimalText (d.nanoseconds / Nat.pow 10 3) (d.nanoseconds % Nat.pow 10 3) 3 ++ "µs"
  else d.nanoseconds.repr ++ "ns"

end Duration

end ServerGroups
