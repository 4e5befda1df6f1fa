/-
ServerGroups/Proofs/Rounding.lean

What rounding to the nearest keeps.

No whole number is nearer to a quotient than the one it is rounded to, and no
double is nearer to it than the one it is rounded to (`dist_round_le`).  So a
quotient that is at least some double is not rounded to less
(`atLeast_ofQuotient`), and the lower bounds that are powers of two go through
sums, products and quotients, past the largest double as well: what is too
large for a double is rounded to infinity, which is at least every number.

Design.  The doubles are not a grid of one width.  Where the place of the last
bit that is kept is not the first one, the quotient has 53 bits before it, and
then the doubles of a smaller place are all below the quotient; the others are
multiples of the last place.
-/
import Mathlib.Data.Nat.Dist
import Mathlib.Tactic
import ServerGroups.Number.Binary64

namespace ServerGroups

namespace Number

/-- Two multiples of a number are equal, or apart by the number at least. -/
theorem mul_le_or_add_le (k q d : Nat) : k * d ≤ q * d ∨ q * d + d ≤ k * d := by
  rcases Nat.lt_or_ge q k with h | h
  · refine .inr ?_
    rw [← Nat.succ_mul]
    exact Nat.mul_le_mul_right d h
  · exact .inl (Nat.mul_le_mul_right d h)

/-- No multiple of the divisor is nearer than the one that is rounded to. -/
theorem roundHalfEven_nearest (a k : Nat) {d : Nat} (hd : 0 < d) :
    Nat.dist a (roundHalfEven a d * d) ≤ Nat.dist a (k * d) := by
  have hparts : a / d * d + a % d = a := Nat.div_add_mod' a d
  have hmod : a % d < d := Nat.mod_lt a hd
  have hside := mul_le_or_add_le k (a / d) d
  unfold Nat.dist
  rcases roundHalfEven_cases a d with ⟨h, hhalf⟩ | ⟨h, hhalf⟩
  · rw [h]
    omega
  · rw [h, Nat.succ_mul]
    omega

/-- What is more than half of the divisor is not rounded to nothing. -/
theorem roundHalfEven_pos {a d : Nat} (hd : 0 < d) (h : d < 2 * a) : 0 < roundHalfEven a d := by
  refine Nat.pos_of_ne_zero fun hzero => ?_
  -- one would be nearer than nothing
  have hnear := roundHalfEven_nearest a 1 hd
  rw [hzero] at hnear
  unfold Nat.dist at hnear
  omega

end Number

namespace Binary64

open Number

variable {a d m p k u v : Nat} {x y : Binary64}

/-- The place of the last bit that is kept leaves 53 bits of the quotient, unless it is the first
place that there is. -/
theorem le_of_lastPlace_pos (h : 0 < lastPlace a d) :
    d * 2 ^ (lastPlace a d + 52) ≤ a := by
  unfold lastPlace at h ⊢
  dsimp only at h ⊢
  split
  · next hguess =>
    rw [if_pos hguess] at h
    have ha : a ≠ 0 := by
      rintro rfl
      simp at hguess
    have hlog : 2 ^ a.log2 ≤ a := Nat.log2_self_le ha
    have hlt : d < 2 ^ (d.log2 + 1) := Nat.lt_log2_self
    have hexp : d.log2 + 1 + (a.log2 - (d.log2 + 52) - 1 + 52) = a.log2 := by omega
    calc d * 2 ^ (a.log2 - (d.log2 + 52) - 1 + 52)
        ≤ 2 ^ (d.log2 + 1) * 2 ^ (a.log2 - (d.log2 + 52) - 1 + 52) :=
          Nat.mul_le_mul_right _ hlt.le
      _ = 2 ^ a.log2 := by rw [← Nat.pow_add, hexp]
      _ ≤ a := hlog
  · next hguess =>
    rw [if_neg hguess] at h
    by_contra hlt
    exact hguess ⟨h, not_le.1 hlt⟩

/-- No double is nearer to a quotient than the significand and the place that are kept of it. -/
theorem dist_round_le (hd : 0 < d) (hm : m < 2 ^ 53) :
    Nat.dist a (roundHalfEven a (d * 2 ^ lastPlace a d) * (d * 2 ^ lastPlace a d)) ≤
      Nat.dist a (m * 2 ^ p * d) := by
  set q := lastPlace a d with hq
  have hpos : 0 < d * 2 ^ q := by positivity
  by_cases hp : q ≤ p
  · -- the double is a multiple of the last place
    have hmultiple : m * 2 ^ p * d = m * 2 ^ (p - q) * (d * 2 ^ q) := by
      rw [← Nat.sub_add_cancel hp, Nat.pow_add, Nat.add_sub_cancel]
      ring
    rw [hmultiple]
    exact roundHalfEven_nearest a _ hpos
  · -- the double is below all that have their last bit at this place, and the quotient is not
    have hbelow : m * 2 ^ p * d ≤ 2 ^ 52 * (d * 2 ^ q) := by
      have hplace : 2 ^ 53 * 2 ^ p ≤ 2 ^ 52 * 2 ^ q := by
        rw [← Nat.pow_add, ← Nat.pow_add]
        exact Nat.pow_le_pow_right (by decide) (by omega)
      calc m * 2 ^ p * d ≤ 2 ^ 53 * 2 ^ p * d := by gcongr
        _ ≤ 2 ^ 52 * 2 ^ q * d := by gcongr
        _ = 2 ^ 52 * (d * 2 ^ q) := by ring
    have hkept : 2 ^ 52 * (d * 2 ^ q) ≤ a := by
      have h := le_of_lastPlace_pos (a := a) (d := d) (by omega)
      rw [← hq, Nat.pow_add] at h
      calc 2 ^ 52 * (d * 2 ^ q) = d * (2 ^ q * 2 ^ 52) := by ring
        _ ≤ a := h
    refine (roundHalfEven_nearest a (2 ^ 52) hpos).trans ?_
    unfold Nat.dist
    omega

/-- What the rounded quotient comes to: the multiple of the last place, unless that is too large
for a double. -/
theorem ofQuotient_cases (negative : Bool) (a d : Nat) :
    (∃ m p, ofQuotient negative a d = finite negative m p ∧
        m * 2 ^ p = roundHalfEven a (d * 2 ^ lastPlace a d) * 2 ^ lastPlace a d) ∨
      ofQuotient negative a d = infinite negative := by
  unfold ofQuotient
  simp only [Nat.pow_eq]
  split
  · next hfull =>
    split
    · -- 53 ones have been rounded up
      refine .inl ⟨_, _, rfl, ?_⟩
      rw [hfull]
      ring
    · exact .inr rfl
  · split
    · exact .inl ⟨_, _, rfl, rfl⟩
    · exact .inr rfl

/-! ### Lower bounds -/

/-- A number is some number of units at least, or positive infinity. -/
inductive AtLeast (v : Nat) : Binary64 → Prop where
  | finite {m p : Nat} (h : v ≤ m * 2 ^ p) : AtLeast v (finite false m p)
  | infinite : AtLeast v (infinite false)

/-- A quotient that is at least a double is rounded to no less. -/
theorem atLeast_ofQuotient (hd : 0 < d) (hm : m < 2 ^ 53) (h : m * 2 ^ p * d ≤ a) :
    (ofQuotient false a d).AtLeast (m * 2 ^ p) := by
  rcases ofQuotient_cases false a d with ⟨n, q, hq, hvalue⟩ | hq
  · rw [hq]
    refine .finite ?_
    by_contra hlt
    have hless : n * 2 ^ q * d < m * 2 ^ p * d := Nat.mul_lt_mul_of_pos_right (not_le.1 hlt) hd
    have hrounded : roundHalfEven a (d * 2 ^ lastPlace a d) * (d * 2 ^ lastPlace a d) =
        n * 2 ^ q * d := by
      rw [hvalue]
      ring
    have hnear := dist_round_le (a := a) (p := p) hd hm
    rw [hrounded] at hnear
    unfold Nat.dist at hnear
    omega
  · rw [hq]
    exact .infinite

/-- A quotient that is at least a power of two is rounded to no less. -/
theorem atLeast_two_pow (hd : 0 < d) (h : 2 ^ k * d ≤ a) :
    (ofQuotient false a d).AtLeast (2 ^ k) := by
  rw [← Nat.one_mul (2 ^ k)] at h ⊢
  exact atLeast_ofQuotient hd (by decide) h

theorem one_pos : 0 < one := by decide +kernel

theorem one_eq : one = 2 ^ 1074 := by decide +kernel

/-- What is not below zero is not rounded below zero. -/
theorem atLeast_zero (a d : Nat) : (ofQuotient false a d).AtLeast 0 := by
  rcases ofQuotient_cases false a d with ⟨n, q, hq, -⟩ | hq
  · rw [hq]
    exact .finite (Nat.zero_le _)
  · rw [hq]
    exact .infinite

theorem atLeast_zero_ofNat (n : Nat) : (ofNat n).AtLeast 0 := atLeast_zero _ _

theorem atLeast_one_ofNat {n : Nat} (hn : 0 < n) : (ofNat n).AtLeast one := by
  have hle : one * 1 ≤ n * one := by
    rw [Nat.mul_comm one]
    exact Nat.mul_le_mul_right one hn
  unfold ofNat
  -- the numbers of units are not to be computed
  revert hle
  generalize n * one = a
  rw [one_eq]
  exact atLeast_two_pow Nat.one_pos

theorem atLeast_one_of_atLeastOne (hx : (x.isFinite && x.atLeastOne) = true) : x.AtLeast one := by
  cases x with
  | finite negative m p =>
    simp only [isFinite, atLeastOne, Bool.true_and, Bool.and_eq_true, Bool.not_eq_true',
      decide_eq_true_eq] at hx
    rw [hx.1]
    exact .finite hx.2
  | infinite | nan => exact absurd hx Bool.false_ne_true

/-! ### Arithmetic -/

theorem mul_finite (s t : Bool) (m p n q : Nat) : (finite s m p).mul (finite t n q) =
    ofQuotient (s != t) (m * 2 ^ p * (n * 2 ^ q)) one := by
  rw [Binary64.mul, Nat.pow_eq, Nat.pow_eq]

theorem div_finite (s t : Bool) (m p q : Nat) {n : Nat} (hn : n ≠ 0) :
    (finite s m p).div (finite t n q) =
      ofQuotient (s != t) (m * 2 ^ p * one) (n * 2 ^ q) := by
  rw [Binary64.div, if_neg hn, Nat.pow_eq, Nat.pow_eq]

/-- The sum of two numbers that are not negative is the rounded sum. -/
theorem add_finite {m p n q : Nat} (h : m * 2 ^ p + n * 2 ^ q ≠ 0) :
    (finite false m p).add (finite false n q) = ofQuotient false (m * 2 ^ p + n * 2 ^ q) 1 := by
  have hsum : ((m * 2 ^ p : Nat) : Int) + (n * 2 ^ q : Nat) =
      ((m * 2 ^ p + n * 2 ^ q : Nat) : Int) := (Int.natCast_add _ _).symm
  have hne : ((m * 2 ^ p + n * 2 ^ q : Nat) : Int) ≠ 0 := Int.natCast_ne_zero.2 h
  have hsign : decide (((m * 2 ^ p + n * 2 ^ q : Nat) : Int) < 0) = false :=
    decide_eq_false (by omega)
  simp only [Binary64.add, Bool.false_eq_true, if_false, Nat.pow_eq]
  rw [hsum, if_neg hne, hsign, Int.natAbs_natCast]

/-- A factor of at least one takes no number below a power of two. -/
theorem AtLeast.mul (hx : x.AtLeast (2 ^ k)) (hy : y.AtLeast one) : (x.mul y).AtLeast (2 ^ k) := by
  have hk : 0 < 2 ^ k := Nat.two_pow_pos k
  have hone := one_pos
  cases hx with
  | finite hm =>
    cases hy with
    | finite hn =>
      rw [mul_finite, bne_self_eq_false]
      exact atLeast_two_pow one_pos (Nat.mul_le_mul hm hn)
    | infinite =>
      rw [Binary64.mul, if_neg (by rintro rfl; omega)]
      exact .infinite
  | infinite =>
    cases hy with
    | finite hn =>
      rw [Binary64.mul, if_neg (by rintro rfl; omega)]
      exact .infinite
    | infinite => exact .infinite

/-- A quotient by a number of units is at least every power of two that the quotient of the bound
reaches. -/
theorem AtLeast.div {n q : Nat} (hx : x.AtLeast u) (hn : n ≠ 0)
    (h : 2 ^ k * (n * 2 ^ q) ≤ u * one) : (x.div (.finite false n q)).AtLeast (2 ^ k) := by
  have hpos : 0 < n * 2 ^ q := Nat.mul_pos (Nat.pos_of_ne_zero hn) (Nat.two_pow_pos q)
  cases hx with
  | finite hm =>
    rw [div_finite _ _ _ _ _ hn, bne_self_eq_false]
    exact atLeast_two_pow hpos (h.trans (Nat.mul_le_mul_right one hm))
  | infinite => exact .infinite

/-- A quotient of numbers that are not negative is not negative. -/
theorem AtLeast.div_zero {n q : Nat} (hx : x.AtLeast 0) (hn : n ≠ 0) :
    (x.div (.finite false n q)).AtLeast 0 := by
  cases hx with
  | finite =>
    rw [div_finite _ _ _ _ _ hn, bne_self_eq_false]
    exact atLeast_zero _ _
  | infinite => exact .infinite

/-- A sum is at least every power of two that the sum of the bounds reaches. -/
theorem AtLeast.add (hx : x.AtLeast u) (hy : y.AtLeast v) (h : 2 ^ k ≤ u + v) :
    (x.add y).AtLeast (2 ^ k) := by
  have hk : 0 < 2 ^ k := Nat.two_pow_pos k
  cases hx with
  | @finite m p hm =>
    cases hy with
    | @finite n q hn =>
      have hsum : 2 ^ k ≤ m * 2 ^ p + n * 2 ^ q := h.trans (Nat.add_le_add hm hn)
      rw [add_finite (by omega)]
      exact atLeast_two_pow Nat.one_pos (by rwa [Nat.mul_one])
    | infinite => exact .infinite
  | infinite =>
    cases hy with
    | finite | infinite => exact .infinite

end Binary64

end ServerGroups
