/-
ServerGroups/Text/Ranges.lean

Sets of characters, as ranges of code points.
-/
namespace ServerGroups.Text

/-- Ranges of code points, both ends included. -/
abbrev Ranges := List (Nat × Nat)

namespace Ranges

/-- Whether a character is in one of some ranges. -/
def hasChar (ranges : Ranges) (c : Char) : Bool :=
  ranges.any fun r => r.1 ≤ c.toNat && c.toNat ≤ r.2

/-- Whether ranges are in ascending order and no two of them touch. -/
def areApart : Ranges → Bool
  | [] => true
  | [r] => r.1 ≤ r.2
  | r :: s :: rest => r.1 ≤ r.2 && (r.2 + 1 < s.1 && areApart (s :: rest))

/-- How many code points there are in ranges that are apart. -/
def size (ranges : Ranges) : Nat := ranges.foldr (fun r n => r.2 + 1 - r.1 + n) 0

end Ranges

end ServerGroups.Text
