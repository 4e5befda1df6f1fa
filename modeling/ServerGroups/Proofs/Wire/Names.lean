/-
ServerGroups/Proofs/Wire/Names.lean

The texts of servers and tables, read back.

The readers are stricter than the printers: an address may be built without a
host and a table name from any two parts, and the texts of these are refused.
A name is legible if its text is not.  What can be read of a text is then the
name that it was printed for, and no other: the port has no colon, so the last
colon is the one that was printed, and of a table name whose first colon is
another one, the qualifier has a colon left.
-/
import ServerGroups.TableName

namespace ServerGroups

open Text

/-! ### Servers -/

namespace ServerAddress

variable {s s' : ServerAddress}

/-- The text of an address can be read: there is a host. -/
def Legible (s : ServerAddress) : Prop := s.host ≠ ""

instance : DecidablePred Legible := fun s => inferInstanceAs (Decidable (s.host ≠ ""))

theorem isDigit_of_mem_repr {n : Nat} {c : Char} (h : c ∈ n.repr.toList) : c.isDigit := by
  rw [Nat.toList_repr] at h
  exact Nat.isDigit_of_mem_toDigits (by decide) (by decide) h

/-- A port without a plus sign is the value of its digits. -/
theorem port?_of_digits {digits : List Char} (h : ∀ c ∈ digits, c.isDigit) (hne : digits ≠ [])
    (hsize : Nat.ofDigitChars 10 digits 0 < UInt16.size) :
    port? digits = some (UInt16.ofNat (Nat.ofDigitChars 10 digits 0)) := by
  rcases digits with - | ⟨c, rest⟩
  · exact absurd rfl hne
  · have hplus : c ≠ '+' := by
      rintro rfl
      exact absurd (h '+' List.mem_cons_self) (by decide)
    have hdigits : (c :: rest).all Char.isDigit := List.all_eq_true.2 h
    simp [port?, hplus, hdigits, hsize]

theorem port?_repr (p : UInt16) : port? p.toNat.repr.toList = some p := by
  have hvalue : Nat.ofDigitChars 10 p.toNat.repr.toList 0 = p.toNat := by
    rw [Nat.toList_repr, Nat.ofDigitChars_ten_toDigits]
  have hne : p.toNat.repr.toList ≠ [] := by
    rw [Nat.toList_repr]
    exact Nat.toDigits_ne_nil
  rw [port?_of_digits (fun c => isDigit_of_mem_repr) hne (by rw [hvalue]; exact p.toNat_lt), hvalue,
    UInt16.ofNat_toNat]

theorem read?_text : read? s.text = some s' ↔ s.Legible ∧ s = s' := by
  have hcolon : ':' ∉ s.port.toNat.repr.toList := fun h =>
    absurd (isDigit_of_mem_repr h) (by decide)
  have hcut : cutLast ':' s.text.toList = some (s.host.toList, s.port.toNat.repr.toList) :=
    cutLast_eq_some_iff.2 ⟨by simp [text], hcolon⟩
  have hhost : s.host.toList = [] ↔ s.host = "" := by simp
  unfold read? Legible
  rw [hcut]
  simp only [hhost, port?_repr, String.ofList_toList, Option.map_some]
  split <;> simp_all

end ServerAddress

/-! ### Tables -/

namespace TableName

variable {t t' : TableName}

/-- The text of a table name can be read: both parts are there, and free of colons. -/
structure Legible (t : TableName) : Prop where
  space : t.space ≠ ""
  spaceColon : ':' ∉ t.space.toList
  qualifier : t.qualifier ≠ ""
  qualifierColon : ':' ∉ t.qualifier.toList

theorem legible_iff : t.Legible ↔ t.space ≠ "" ∧ ':' ∉ t.space.toList ∧ t.qualifier ≠ "" ∧
    ':' ∉ t.qualifier.toList :=
  ⟨fun h => ⟨h.space, h.spaceColon, h.qualifier, h.qualifierColon⟩,
    fun ⟨h₁, h₂, h₃, h₄⟩ => ⟨h₁, h₂, h₃, h₄⟩⟩

instance : DecidablePred Legible := fun _ => decidable_of_iff' _ legible_iff

theorem read?_text : read? t.text = some t' ↔ t.Legible ∧ t = t' := by
  have htext : t.text.toList = t.space.toList ++ ':' :: t.qualifier.toList := by simp [text]
  have hspace : t.space.toList = [] ↔ t.space = "" := by simp
  have hqualifier : t.qualifier.toList = [] ↔ t.qualifier = "" := by simp
  unfold read?
  by_cases hcolon : ':' ∈ t.space.toList
  · -- the text is cut at a colon of the first part, so the rest has a colon left
    rcases hfirst : cutFirst ':' t.space.toList with - | ⟨before, behind⟩
    · exact absurd hcolon (cutFirst_eq_none_iff.1 hfirst)
    · obtain ⟨hparts, hbefore⟩ := cutFirst_eq_some_iff.1 hfirst
      have hcut : cutFirst ':' t.text.toList =
          some (before, behind ++ ':' :: t.qualifier.toList) :=
        cutFirst_eq_some_iff.2 ⟨by simp [htext, hparts], hbefore⟩
      have hleft : ':' ∈ behind ++ ':' :: t.qualifier.toList := by simp
      rw [hcut]
      simp only [hleft, or_true, if_true]
      exact ⟨fun h => (by cases h), fun h => absurd hcolon h.1.spaceColon⟩
  · have hcut : cutFirst ':' t.text.toList = some (t.space.toList, t.qualifier.toList) :=
      cutFirst_eq_some_iff.2 ⟨htext, hcolon⟩
    rw [hcut, legible_iff]
    simp only [hspace, hqualifier, String.ofList_toList]
    split
    · next hbad =>
      refine ⟨fun h => (by cases h), fun h => ?_⟩
      obtain ⟨hlegible, -⟩ := h
      rcases hbad with h | h | h
      · exact absurd h hlegible.1
      · exact absurd h hlegible.2.2.1
      · exact absurd h hlegible.2.2.2
    · next hgood =>
      obtain ⟨hspace, hqualifier, hclear⟩ : t.space ≠ "" ∧ t.qualifier ≠ "" ∧
          ':' ∉ t.qualifier.toList := by simpa only [not_or] using hgood
      exact ⟨fun h => ⟨⟨hspace, hcolon, hqualifier, hclear⟩, Option.some.inj h⟩,
        fun h => congrArg some h.2⟩

end TableName

end ServerGroups
