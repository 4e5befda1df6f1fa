/-
ServerGroups/Number/Positional.lean

Doubles written without an exponent: the shortest digits, with zeros up to the
decimal point where the digits do not reach it, and no point in a whole number.
-/
import ServerGroups.Number.Shortest

namespace ServerGroups

namespace Number

/-- `n` zeros. -/
def zeros (n : Nat) : String := String.ofList (List.replicate n '0')

/-- A decimal without an exponent. -/
def Decimal.positional (x : Decimal) : String :=
  let digits := Nat.toDigits 10 x.digits
  if 0 ≤ x.exponent then String.ofList digits ++ zeros x.exponent.toNat
  else
    let places := (-x.exponent).toNat
    if places < digits.length then
      String.ofList (digits.take (digits.length - places)) ++ "." ++
        String.ofList (digits.drop (digits.length - places))
    else "0." ++ zeros (places - digits.length) ++ String.ofList digits

end Number

/-- A double without an exponent; of two equally near decimals the upper one stands for it. -/
def Binary64.text : Binary64 → String
  | nan .. => "NaN"
  | infinite negative => (if negative then "-" else "") ++ "inf"
  | finite negative m p =>
    (if negative then "-" else "") ++
      if m = 0 then "0" else (Number.shortest .upper m p).positional

end ServerGroups
