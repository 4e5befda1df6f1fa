/-
ServerGroups/Proofs/Wire/Strings.lean

A string that has been printed is read back.

The printer turns each character into an escape or leaves it as it is, and the
reader turns this into one piece, which names the character:

    c ---- escape ----> text ---- pieces? ----> piece c ---- assemble ----> c

Only a control character without a letter of its own is named by a number, and
that number is below 32, so no character is ever taken for half of a pair.
-/
import ServerGroups.Json.Printer
import ServerGroups.Json.Reader

namespace ServerGroups.Json

variable {c : Char} {cs rest : List Char} {n : Nat}

/-! ### One character -/

/-- Whether a character is escaped by a backslash and one more character. -/
def isShort (c : Char) : Bool :=
  c = '"' || c = '\\' || c = '\x08' || c = '\t' || c = '\n' || c = '\x0c' || c = '\r'

/-- The piece of a string that is read where a character was printed. -/
def piece (c : Char) : Piece :=
  if c.val < 0x20 ∧ ¬ isShort c then .unit c.toNat else .char c

theorem hexUnit?_control (h : n < 0x20) :
    hexUnit? '0' '0' (Nat.digitChar (n / 16)) (Nat.digitChar (n % 16)) = some n := by
  revert n
  decide

/-- The pieces of a text that begins with a character that needs no escape. -/
theorem pieces?_plain (hquote : c ≠ '"') (hslash : c ≠ '\\') (hprintable : ¬ c.val < 0x20) :
    pieces? (c :: cs) = (pieces? cs).map fun x => (.char c :: x.1, x.2) := by
  rw [pieces?.eq_def]
  split
  · next h => cases h
  · next h => exact absurd (List.cons.inj h).1 hquote
  · next h => exact absurd (List.cons.inj h).1 hslash
  · next h => exact absurd (List.cons.inj h).1 hslash
  · next h =>
    obtain ⟨rfl, rfl⟩ := List.cons.inj h
    rw [if_neg (by simp [hslash, hprintable])]
    rcases pieces? cs with - | ⟨ps, r⟩ <;> rfl

/-- The escape of a character is read as one piece. -/
theorem pieces?_escape (c : Char) (rest : List Char) :
    pieces? (escape c ++ rest) = (pieces? rest).map fun x => (piece c :: x.1, x.2) := by
  unfold escape
  iterate 7
    split
    · next h =>
      subst h
      rw [List.cons_append, List.cons_append, List.nil_append, pieces?]
      · rcases pieces? rest with - | ⟨ps, r⟩ <;> rfl
      · simp
  have hshort : isShort c = false := by simp_all [isShort]
  split
  · next hcontrol =>
    have hnumber : c.toNat < 0x20 := hcontrol
    simp only [List.cons_append, List.nil_append]
    rw [pieces?, hexUnit?_control hnumber, piece, if_pos ⟨hcontrol, by simp [hshort]⟩]
    rcases pieces? rest with - | ⟨ps, r⟩ <;> rfl
  · next hquote hslash _ _ _ _ _ hprintable =>
    rw [List.cons_append, List.nil_append, pieces?_plain hquote hslash hprintable, piece,
      if_neg fun h => hprintable h.1]

/-- A piece names the character that it was printed for. -/
theorem assemble_piece (ps : List Piece) :
    assemble (piece c :: ps) = (assemble ps).map (c :: ·) := by
  unfold piece
  split
  · next hcontrol =>
    have hnumber : c.toNat < 0x20 := hcontrol.1
    have hhigh : isHigh c.toNat = false := by simp [isHigh]; omega
    have hlow : isLow c.toNat = false := by simp [isLow]; omega
    rw [assemble.eq_def]
    simp only [hhigh, hlow, Char.ofNat_toNat, Bool.false_eq_true, if_false]
  · rfl

/-! ### Whole strings -/

theorem pieces?_escapes (cs rest : List Char) :
    pieces? (cs.flatMap escape ++ '"' :: rest) = some (cs.map piece, rest) := by
  induction cs with
  | nil => rfl
  | cons c cs ih => rw [List.flatMap_cons, List.append_assoc, pieces?_escape, ih]; rfl

theorem assemble_pieces (cs : List Char) : assemble (cs.map piece) = some cs := by
  induction cs with
  | nil => rfl
  | cons c cs ih => rw [List.map_cons, assemble_piece, ih]; rfl

/-- A string that has been printed is read back, whatever follows it. -/
theorem stringBody?_print (s : String) (rest : List Char) :
    stringBody? (s.toList.flatMap escape ++ '"' :: rest) = some (some s, rest) := by
  rw [stringBody?, pieces?_escapes, Option.map_some]
  show some ((assemble _).map String.ofList, rest) = _
  rw [assemble_pieces, Option.map_some, String.ofList_toList]

end ServerGroups.Json
