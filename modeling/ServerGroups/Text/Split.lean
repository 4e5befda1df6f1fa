/-
ServerGroups/Text/Split.lean

Cutting a text in two at a separator, at its first or at its last occurrence.

Each cut is pinned down by one equivalence: the pieces put the text together
again around the separator, and the piece on the searched side is free of it.
-/
namespace ServerGroups.Text

/-- The text before the first `c` and the text after it, if there is one. -/
def cutFirst (c : Char) : List Char → Option (List Char × List Char)
  | [] => none
  | x :: xs =>
    if x = c then some ([], xs)
    else (cutFirst c xs).map fun p => (x :: p.1, p.2)

/-- The text before the last `c` and the text after it, if there is one. -/
def cutLast (c : Char) : List Char → Option (List Char × List Char)
  | [] => none
  | x :: xs =>
    match cutLast c xs with
    | some p => some (x :: p.1, p.2)
    | none => if x = c then some ([], xs) else none

/-! ### What the cuts say -/

theorem cutFirst_eq_none_iff {c : Char} {s : List Char} : cutFirst c s = none ↔ c ∉ s := by
  induction s with
  | nil => simp [cutFirst]
  | cons x xs ih =>
    by_cases h : x = c
    · simp [cutFirst, h]
    · simp [cutFirst, h, ih, Ne.symm h]

theorem cutFirst_eq_some_iff {c : Char} {s a b : List Char} :
    cutFirst c s = some (a, b) ↔ s = a ++ c :: b ∧ c ∉ a := by
  induction s generalizing a with
  | nil => simp [cutFirst]
  | cons x xs ih =>
    by_cases h : x = c
    · cases a with
      | nil => simp [cutFirst, h]
      | cons y ys =>
        subst h
        simp only [cutFirst, if_true, Option.some.injEq, Prod.mk.injEq, List.cons_append,
          List.cons.injEq, List.mem_cons, not_or]
        constructor
        · rintro ⟨h, -⟩
          cases h
        · rintro ⟨⟨rfl, -⟩, h, -⟩
          exact absurd rfl h
    · cases a with
      | nil => simp [cutFirst, h]
      | cons y ys =>
        simp only [cutFirst, h, if_false, Option.map_eq_some_iff, Prod.mk.injEq, List.cons.injEq,
          Prod.exists, List.cons_append, List.mem_cons, not_or]
        constructor
        · rintro ⟨a', b', hc, ⟨rfl, rfl⟩, rfl⟩
          obtain ⟨rfl, hn⟩ := ih.1 hc
          exact ⟨⟨rfl, rfl⟩, Ne.symm h, hn⟩
        · rintro ⟨⟨rfl, rfl⟩, -, hn⟩
          exact ⟨ys, b, ih.2 ⟨rfl, hn⟩, ⟨rfl, rfl⟩, rfl⟩

theorem cutLast_eq_none_iff {c : Char} {s : List Char} : cutLast c s = none ↔ c ∉ s := by
  induction s with
  | nil => simp [cutLast]
  | cons x xs ih =>
    rcases e : cutLast c xs with - | p
    · have hx := ih.1 e
      by_cases h : x = c
      · simp [cutLast, e, h]
      · simp [cutLast, e, h, hx, Ne.symm h]
    · have hx : ¬ c ∉ xs := fun hn => by simp [ih.2 hn] at e
      simp only [cutLast, e, List.mem_cons, not_or]
      constructor
      · intro h
        cases h
      · exact fun h => absurd h.2 hx

theorem cutLast_eq_some_iff {c : Char} {s a b : List Char} :
    cutLast c s = some (a, b) ↔ s = a ++ c :: b ∧ c ∉ b := by
  induction s generalizing a b with
  | nil => simp [cutLast]
  | cons x xs ih =>
    rcases e : cutLast c xs with - | ⟨a', b'⟩
    · have hx := cutLast_eq_none_iff.1 e
      cases a with
      | nil =>
        by_cases h : x = c
        · subst h
          simp only [cutLast, e, if_true, Option.some.injEq, Prod.mk.injEq, true_and,
            List.nil_append, List.cons.injEq]
          constructor
          · rintro rfl
            exact ⟨rfl, hx⟩
          · exact fun h => h.1
        · simp [cutLast, e, h]
      | cons y ys =>
        have hn : cutLast c (x :: xs) ≠ some (y :: ys, b) := by
          by_cases h : x = c <;> simp [cutLast, e, h]
        simp only [hn, false_iff, List.cons_append, List.cons.injEq, not_and]
        rintro ⟨rfl, rfl⟩
        simp at hx
    · obtain ⟨hxs, hb⟩ := ih.1 e
      simp only [cutLast, e, Option.some.injEq, Prod.mk.injEq]
      cases a with
      | nil =>
        simp only [reduceCtorEq, false_and, List.nil_append, List.cons.injEq, false_iff, not_and]
        rintro ⟨rfl, rfl⟩
        simp [hxs]
      | cons y ys =>
        simp only [List.cons.injEq, List.cons_append]
        constructor
        · rintro ⟨⟨rfl, rfl⟩, rfl⟩
          exact ⟨⟨rfl, hxs⟩, hb⟩
        · rintro ⟨⟨rfl, hys⟩, hn⟩
          have h := ih.2 ⟨hys, hn⟩
          rw [e] at h
          cases h
          exact ⟨⟨rfl, rfl⟩, rfl⟩

end ServerGroups.Text
