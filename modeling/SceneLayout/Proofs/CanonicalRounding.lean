import Mathlib.Algebra.Order.Field.Power
import Mathlib.Data.Nat.Log
import Mathlib.Tactic.FieldSimp
import Mathlib.Tactic.NormNum
import Mathlib.Tactic.Positivity
import SceneLayout.Number.Binary64

/-!
# Rounding gives doubles

A ratio is divided by a power of two before it is rounded to a mantissa. The power comes from an
estimate by the binary digits of both numbers, which is off by one place at most. So the
scaled ratio has 53 binary digits before its point, or less at the least exponent, and what
`nearest` gives is a value in the form of a double.

Main statement: `canonical_nearest`.
-/

namespace SceneLayout

/-- Dividing by a power divides the ratio. -/
theorem ratio_scaleDown {base : Nat} (positive : 0 < base) (num den : Nat) (exponent : Int) :
    ((scaleDown base num den exponent).1 : ℚ) / (scaleDown base num den exponent).2 =
      (num : ℚ) / den * (base : ℚ) ^ (-exponent) := by
  have nonzero : (base : ℚ) ≠ 0 := Nat.cast_ne_zero.mpr positive.ne'
  unfold scaleDown
  split_ifs with sign
  · lift exponent to ℕ using sign
    rw [Int.toNat_natCast, Nat.pow_eq, Nat.cast_mul, Nat.cast_pow, zpow_neg, zpow_natCast,
      div_mul_eq_div_div, div_eq_mul_inv _ ((base : ℚ) ^ exponent)]
  · obtain ⟨magnitude, rfl⟩ : ∃ magnitude : ℕ, exponent = -(magnitude : ℤ) :=
      ⟨(-exponent).toNat, by omega⟩
    rw [neg_neg, Int.toNat_natCast, Nat.pow_eq, Nat.cast_mul, Nat.cast_pow, zpow_natCast,
      div_mul_eq_mul_div]

theorem scaleDown_den_pos {base : Nat} (positive : 0 < base) {den : Nat} (h : 0 < den) (num : Nat)
    (exponent : Int) : 0 < (scaleDown base num den exponent).2 := by
  unfold scaleDown
  split_ifs
  · exact Nat.mul_pos h (Nat.pow_pos positive)
  · exact h

/-- A rounded quotient is the quotient or one more. -/
theorem div_le_roundHalfEven (num den : Nat) :
    num / den ≤ roundHalfEven num den ∧ roundHalfEven num den ≤ num / den + 1 := by
  have parity := Nat.mod_lt (num / den) two_pos
  unfold roundHalfEven
  dsimp only
  split_ifs <;> omega

theorem roundHalfEven_le {num den bound : Nat} (h : 0 < den) (below : (num : ℚ) / den < bound) :
    roundHalfEven num den ≤ bound := by
  have small : num < bound * den := by
    rw [div_lt_iff₀ (Nat.cast_pos.mpr h)] at below
    exact_mod_cast below
  have quotient : num / den < bound := (Nat.div_lt_iff_lt_mul h).mpr small
  exact (div_le_roundHalfEven num den).2.trans quotient

theorem le_roundHalfEven {num den bound : Nat} (h : 0 < den) (above : (bound : ℚ) ≤ (num : ℚ) / den) :
    bound ≤ roundHalfEven num den := by
  have great : bound * den ≤ num := by
    rw [le_div_iff₀ (Nat.cast_pos.mpr h)] at above
    exact_mod_cast above
  have quotient : bound ≤ num / den := (Nat.le_div_iff_mul_le h).mpr great
  exact quotient.trans (div_le_roundHalfEven num den).1

namespace Binary64

/-- The numbers of binary digits tell a ratio up to a factor of two on either side. -/
theorem ratio_between {num den : Nat} (hn : num ≠ 0) (hd : den ≠ 0) :
    (2 : ℚ) ^ ((num.log2 : ℤ) - den.log2 - 1) < (num : ℚ) / den ∧
      (num : ℚ) / den < (2 : ℚ) ^ ((num.log2 : ℤ) - den.log2 + 1) := by
  have two : (2 : ℚ) ≠ 0 := two_ne_zero
  have numLow : (2 : ℚ) ^ (num.log2 : ℤ) ≤ num := by exact_mod_cast Nat.log2_self_le hn
  have numHigh : (num : ℚ) < 2 ^ ((num.log2 : ℤ) + 1) := by
    exact_mod_cast Nat.lt_log2_self
  have denLow : (2 : ℚ) ^ (den.log2 : ℤ) ≤ den := by exact_mod_cast Nat.log2_self_le hd
  have denHigh : (den : ℚ) < 2 ^ ((den.log2 : ℤ) + 1) := by
    exact_mod_cast Nat.lt_log2_self
  have denPos : (0 : ℚ) < den := by positivity
  constructor
  · rw [lt_div_iff₀ denPos]
    calc (2 : ℚ) ^ ((num.log2 : ℤ) - den.log2 - 1) * den
        < 2 ^ ((num.log2 : ℤ) - den.log2 - 1) * 2 ^ ((den.log2 : ℤ) + 1) := by gcongr
      _ = 2 ^ (num.log2 : ℤ) := by
          rw [← zpow_add₀ two]
          congr 1
          omega
      _ ≤ num := numLow
  · rw [div_lt_iff₀ denPos]
    calc (num : ℚ) < 2 ^ ((num.log2 : ℤ) + 1) := numHigh
      _ = 2 ^ ((num.log2 : ℤ) - den.log2 + 1) * 2 ^ (den.log2 : ℤ) := by
          rw [← zpow_add₀ two]
          congr 1
          omega
      _ ≤ 2 ^ ((num.log2 : ℤ) - den.log2 + 1) * den := by gcongr

/-- What `exponentOf` looks at to correct its estimate. -/
theorem scaleDown_lt_iff {num den : Nat} (hd : den ≠ 0) (exponent : Int) :
    (scaleDown 2 num den exponent).1 < (scaleDown 2 num den exponent).2 * mantissaBound ↔
      (num : ℚ) / den * 2 ^ (-exponent) < (2 : ℚ) ^ (53 : ℤ) := by
  have scaled := ratio_scaleDown two_pos num den exponent
  have positive := scaleDown_den_pos two_pos (Nat.pos_of_ne_zero hd) num exponent
  rw [Nat.cast_ofNat] at scaled
  rw [← scaled, div_lt_iff₀ (Nat.cast_pos.mpr positive), mul_comm, mantissaBound]
  norm_cast

/-- A positive ratio that is scaled by its exponent has 53 binary digits before its point, or less
at the least exponent. -/
theorem scaled_between {num den : Nat} (hn : num ≠ 0) (hd : den ≠ 0) :
    (num : ℚ) / den * 2 ^ (-exponentOf num den) < (2 : ℚ) ^ (53 : ℤ) ∧
      (exponentOf num den = leastExponent ∨
        (2 : ℚ) ^ (52 : ℤ) ≤ (num : ℚ) / den * 2 ^ (-exponentOf num den)) := by
  have shift : ∀ a b c : ℤ, a + b = c → (2 : ℚ) ^ c = 2 ^ a * 2 ^ b := by
    rintro a b _ rfl
    exact zpow_add₀ two_ne_zero a b
  have pos : ∀ exponent : ℤ, (0 : ℚ) < 2 ^ exponent := fun exponent => by positivity
  obtain ⟨above, below⟩ := ratio_between hn hd
  set low : ℤ := (num.log2 : ℤ) - den.log2 - 53 with lowEq
  rw [show (num.log2 : ℤ) - den.log2 - 1 = low + 52 by omega] at above
  rw [show (num.log2 : ℤ) - den.log2 + 1 = low + 54 by omega] at below
  -- The exponent before it is compared with the least one.
  obtain ⟨free, exponent, small, great⟩ : ∃ free : ℤ, exponentOf num den = max leastExponent free ∧
      (num : ℚ) / den * 2 ^ (-free) < (2 : ℚ) ^ (53 : ℤ) ∧
      (2 : ℚ) ^ (52 : ℤ) ≤ (num : ℚ) / den * 2 ^ (-free) := by
    by_cases fits : (num : ℚ) / den * 2 ^ (-low) < (2 : ℚ) ^ (53 : ℤ)
    · refine ⟨low, ?_, fits, ?_⟩
      · rw [exponentOf, if_pos ((scaleDown_lt_iff hd low).mpr fits)]
      · rw [shift (low + 52) (-low) 52 (by omega)]
        exact mul_le_mul_of_nonneg_right above.le (pos _).le
    · refine ⟨low + 1, ?_, ?_, ?_⟩
      · rw [exponentOf, if_neg ((scaleDown_lt_iff hd low).not.mpr fits)]
      · rw [shift (low + 54) (-(low + 1)) 53 (by omega)]
        exact mul_lt_mul_of_pos_right below (pos _)
      · rw [shift 53 (-1) 52 rfl, shift (-low) (-1) (-(low + 1)) (by omega), ← mul_assoc]
        exact mul_le_mul_of_nonneg_right (not_lt.mp fits) (pos _).le
  rw [exponent]
  rcases le_total leastExponent free with inside | outside
  · rw [max_eq_right inside]
    exact ⟨small, .inr great⟩
  · rw [max_eq_left outside]
    refine ⟨lt_of_le_of_lt ?_ small, .inl rfl⟩
    have order : (2 : ℚ) ^ (-leastExponent) ≤ 2 ^ (-free) :=
      zpow_le_zpow_right₀ one_le_two (neg_le_neg outside)
    exact mul_le_mul_of_nonneg_left order (by positivity)

theorem canonical_zero (negative : Bool) : (zero negative).Canonical := by
  refine ⟨le_rfl, ?_, ?_, .inl rfl⟩ <;> decide

/-- A mantissa of 53 binary digits, or less at the least exponent, makes a double. -/
theorem canonical_ofRounded (negative : Bool) {mantissa : Nat} {exponent : Int}
    (small : mantissa ≤ mantissaBound) (least : leastExponent ≤ exponent)
    (normal : exponent = leastExponent ∨ mantissaBound ≤ 2 * mantissa) :
    (ofRounded negative mantissa exponent).Canonical := by
  unfold ofRounded ofRounded.ofScaled
  split_ifs with fits inside inside
  · exact ⟨least, inside, fits, normal⟩
  · trivial
  · refine ⟨?_, inside, ?_, .inr ?_⟩
    · omega
    · simp only [mantissaBound] at fits small ⊢
      omega
    · simp only [mantissaBound] at fits small ⊢
      omega
  · trivial

/-- What is nearest to a ratio is a double. -/
theorem canonical_nearest (negative : Bool) (num : Nat) {den : Nat} (h : 0 < den) :
    (nearest negative num den).Canonical := by
  unfold nearest
  split_ifs with zero
  · exact canonical_zero negative
  · obtain ⟨below, above⟩ := scaled_between zero h.ne'
    have positive := scaleDown_den_pos two_pos h num (exponentOf num den)
    have scaled := ratio_scaleDown two_pos num den (exponentOf num den)
    rw [Nat.cast_ofNat] at scaled
    rw [← scaled] at below above
    apply canonical_ofRounded
    · apply roundHalfEven_le positive
      rw [mantissaBound]
      exact_mod_cast below
    · exact le_max_left ..
    · apply above.imp_right
      intro above
      have round : hiddenBit ≤ roundHalfEven (scaleDown 2 num den (exponentOf num den)).1
          (scaleDown 2 num den (exponentOf num den)).2 := by
        apply le_roundHalfEven positive
        rw [hiddenBit]
        exact_mod_cast above
      rw [mantissaBound]
      rw [hiddenBit] at round
      omega

theorem canonical_ofInt (n : Int) : (ofInt n).Canonical := canonical_nearest _ _ one_pos

/-- A number that is not negative is not rounded to a negative one. -/
theorem isNegative_ofInt {n : Int} (h : 0 ≤ n) : (ofInt n).isNegative = false := by
  rw [ofInt, decide_eq_false (not_lt.mpr h)]
  unfold nearest ofRounded ofRounded.ofScaled
  dsimp only
  split_ifs <;> rfl

end Binary64

end SceneLayout
