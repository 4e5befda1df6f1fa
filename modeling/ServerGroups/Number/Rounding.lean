/-
ServerGroups/Number/Rounding.lean

Rounding a quotient of natural numbers to the nearest whole number, an exact
half going to the even neighbour.
-/
namespace ServerGroups.Number

/-- The whole number nearest to `a / d`, the even one of two that are equally near. -/
def roundHalfEven (a d : Nat) : Nat :=
  let q := a / d
  let r := a % d
  if 2 * r < d then q
  else if d < 2 * r then q + 1
  else q + q % 2

/-- The rounding is the quotient, or one more where the remainder is at least half. -/
theorem roundHalfEven_cases (a d : Nat) :
    (roundHalfEven a d = a / d ∧ 2 * (a % d) ≤ d) ∨
      (roundHalfEven a d = a / d + 1 ∧ d ≤ 2 * (a % d)) := by
  unfold roundHalfEven
  dsimp only
  split
  · exact .inl ⟨rfl, by omega⟩
  · split
    · exact .inr ⟨rfl, by omega⟩
    · have : a / d % 2 = 0 ∨ a / d % 2 = 1 := by omega
      rcases this with h | h <;> rw [h]
      · exact .inl ⟨rfl, by omega⟩
      · exact .inr ⟨rfl, by omega⟩

end ServerGroups.Number
