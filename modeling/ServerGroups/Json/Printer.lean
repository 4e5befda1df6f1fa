/-
ServerGroups/Json/Printer.lean

JSON values as text, without blanks.

Quotes, backslashes and control characters are escaped and no other character
is.  A number that was not written as a whole number keeps a fraction or an
exponent, and an exponent always has its sign.
-/
import ServerGroups.Json.Value
import ServerGroups.Number.Positional

namespace ServerGroups.Json

/-- The escape of a character in a string, or the character itself. -/
def escape (c : Char) : List Char :=
  if c = '"' then ['\\', '"']
  else if c = '\\' then ['\\', '\\']
  else if c = '\x08' then ['\\', 'b']
  else if c = '\t' then ['\\', 't']
  else if c = '\n' then ['\\', 'n']
  else if c = '\x0c' then ['\\', 'f']
  else if c = '\r' then ['\\', 'r']
  else if c.val < 0x20 then
    ['\\', 'u', '0', '0', Nat.digitChar (c.toNat / 16), Nat.digitChar (c.toNat % 16)]
  else [c]

/-- A string in quotes. -/
def printString (s : String) : List Char :=
  '"' :: (s.toList.flatMap escape ++ ['"'])

/-- A double: with a point if its decimal point is near its digits, otherwise with an exponent; of
two equally near decimals the even one stands for it. -/
def printReal : Binary64 → List Char
  | .finite below m p =>
    let sign := if below then ['-'] else []
    if m = 0 then sign ++ ['0', '.', '0']
    else
      let x := Number.shortest .even m p
      let digits := Nat.toDigits 10 x.digits
      let point := (digits.length : Int) + x.exponent
      if -5 < point ∧ point ≤ 16 then
        sign ++ x.positional.toList ++ (if 0 ≤ x.exponent then ['.', '0'] else [])
      else
        let exponentSign := if 0 < point then '+' else '-'
        let exponent := 'e' :: exponentSign :: Nat.toDigits 10 (point - 1).natAbs
        match digits with
        | d :: e :: rest => sign ++ d :: '.' :: e :: rest ++ exponent
        | _ => sign ++ digits ++ exponent
  | _ => ['n', 'u', 'l', 'l']

mutual

/-- The text of a value. -/
def print : Json → List Char
  | null | unreadable => ['n', 'u', 'l', 'l']
  | bool true => ['t', 'r', 'u', 'e']
  | bool false => ['f', 'a', 'l', 's', 'e']
  | natural n => Nat.toDigits 10 n
  | negative n => '-' :: Nat.toDigits 10 n
  | real x => printReal x
  | string s => printString s
  | array [] => ['[', ']']
  | array (v :: rest) => '[' :: (print v ++ printItems rest)
  | object [] => ['\x7b', '\x7d']
  | object ((k, v) :: rest) => '\x7b' :: (printString k ++ ':' :: (print v ++ printMembers rest))

/-- The items of an array after the first, and its end. -/
def printItems : List Json → List Char
  | [] => [']']
  | v :: rest => ',' :: (print v ++ printItems rest)

/-- The members of an object after the first, and its end. -/
def printMembers : List (String × Json) → List Char
  | [] => ['\x7d']
  | (k, v) :: rest => ',' :: (printString k ++ ':' :: (print v ++ printMembers rest))

end

/-- The text of a value. -/
def text (j : Json) : String := String.ofList j.print

end ServerGroups.Json
