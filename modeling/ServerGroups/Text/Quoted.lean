/-
ServerGroups/Text/Quoted.lean

Texts in quotes, as they are shown in a message: quotes, backslashes and line
ends are escaped, and so is every character that would not be seen or that
would change the look of its neighbour.
-/
import ServerGroups.Text.Combining
import ServerGroups.Text.Invisible

namespace ServerGroups.Text

/-- Whether a character would not be seen or would change the look of its neighbour. -/
def isUnseen (c : Char) : Bool := combining.hasChar c || invisible.hasChar c

/-- A character as it is shown between quotes. -/
def shown (c : Char) : String :=
  if c = '"' then "\\\""
  else if c = '\\' then "\\\\"
  else if c = '\n' then "\\n"
  else if c = '\r' then "\\r"
  else if c = '\t' then "\\t"
  else if c.val = 0 then "\\0"
  else if isUnseen c then
    "\\u\x7b" ++ String.ofList (Nat.toDigits 16 c.val.toNat) ++ "\x7d"
  else c.toString

/-- A text in quotes. -/
def quoted (s : String) : String :=
  "\"" ++ String.join (s.toList.map shown) ++ "\""

/-- Texts in quotes, in brackets and parted by commas. -/
def quotedList (texts : List String) : String :=
  "[" ++ String.intercalate ", " (texts.map quoted) ++ "]"

end ServerGroups.Text
