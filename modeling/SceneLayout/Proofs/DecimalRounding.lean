import SceneLayout.Number.Shortest
import SceneLayout.Proofs.NearestDoubles

/-!
# Decimals and the doubles nearest to them

Reading a decimal as a double gives the nearest one. Decimals that are too great or too small for
all doubles are told by their exponents before their powers of ten are taken, and this agrees with
rounding them. So the double depends only on the sign and the value of a decimal, not on how many
zeros its digits end in, and the shortest decimal of a double reads back as that double.

Main statements: `toBinary64_eq`, `isNearest_toBinary64`, `toRat_toBinary64_le`,
`exists_shortest`.
-/

namespace SceneLayout

namespace Decimal

open Binary64 (withSign nearest nearest_eq_infinity nearest_eq_zero)

/-- The exact value of a decimal without its sign. -/
def magnitude (d : Decimal) : ℚ := d.digits * 10 ^ d.exponent

/-- The exact value of a decimal. -/
def toRat (d : Decimal) : ℚ := withSign d.negative d.magnitude

theorem two_zpow_le_ten_zpow {n : ℤ} (h : 0 ≤ n) : (2 : ℚ) ^ (3 * n) ≤ 10 ^ n := by
  rw [zpow_mul]
  exact zpow_le_zpow_left₀ h (by positivity) (by norm_num)

theorem ten_zpow_le_two_zpow {n : ℤ} (h : n ≤ 0) : (10 : ℚ) ^ n ≤ 2 ^ (3 * n) := by
  have opposite := two_zpow_le_ten_zpow (neg_nonneg.mpr h)
  rw [mul_neg, zpow_neg, zpow_neg] at opposite
  exact (inv_le_inv₀ (by positivity) (by positivity)).mp opposite

/-- Above 10 ^ 400 a decimal that is not zero is beyond all doubles. -/
theorem great_magnitude {d : Decimal} (some : d.digits ≠ 0) (great : 400 < d.exponent) :
    (2 : ℚ) ^ (1100 : ℤ) ≤ d.magnitude := by
  have one : (1 : ℚ) ≤ d.digits := by exact_mod_cast Nat.one_le_iff_ne_zero.mpr some
  calc (2 : ℚ) ^ (1100 : ℤ) ≤ 2 ^ (3 * d.exponent) := zpow_le_zpow_right₀ one_le_two (by omega)
    _ ≤ 10 ^ d.exponent := two_zpow_le_ten_zpow (by omega)
    _ ≤ d.digits * 10 ^ d.exponent := le_mul_of_one_le_left (by positivity) one

/-- Below 10 ^ -400 a decimal is below half of the smallest double. -/
theorem small_magnitude {d : Decimal} (small : d.exponent < -(400 + (d.digits.log2 : ℤ))) :
    d.magnitude < 2 ^ (-1080 : ℤ) := by
  have digits : (d.digits : ℚ) < 2 ^ ((d.digits.log2 : ℤ) + 1) := by
    exact_mod_cast Nat.lt_log2_self
  calc (d.digits : ℚ) * 10 ^ d.exponent
      ≤ d.digits * 2 ^ (3 * d.exponent) := by
        gcongr
        exact ten_zpow_le_two_zpow (by omega)
    _ < 2 ^ ((d.digits.log2 : ℤ) + 1) * 2 ^ (3 * d.exponent) := by gcongr
    _ = 2 ^ ((d.digits.log2 : ℤ) + 1 + 3 * d.exponent) := (zpow_add₀ two_ne_zero _ _).symm
    _ ≤ 2 ^ (-1080 : ℤ) := zpow_le_zpow_right₀ one_le_two (by omega)

/-- Reading a decimal rounds its value to the nearest double. -/
theorem toBinary64_eq (d : Decimal) :
    ∃ num den : ℕ, 0 < den ∧ (num : ℚ) / den = d.magnitude ∧
      d.toBinary64 = nearest d.negative num den := by
  have positive := scaleDown_den_pos (by decide : 0 < 10) one_pos d.digits (-d.exponent)
  have value := ratio_scaleDown (by decide : 0 < 10) d.digits 1 (-d.exponent)
  rw [Nat.cast_one, div_one, neg_neg, Nat.cast_ofNat] at value
  refine ⟨_, _, positive, value, ?_⟩
  unfold toBinary64
  split_ifs with none great small
  · rw [nearest_eq_zero positive]
    rw [value, none, Nat.cast_zero, zero_mul]
    positivity
  · exact (nearest_eq_infinity positive (value ▸ great_magnitude none great)).symm
  · exact (nearest_eq_zero positive (value ▸ small_magnitude small)).symm
  · rfl

/-- The double of a decimal is nearest to it, unless it overflows. -/
theorem isNearest_toBinary64 {d : Decimal} (stays : d.toBinary64.isFinite = true) :
    d.toBinary64.IsNearest d.toRat := by
  obtain ⟨num, den, positive, value, found⟩ := d.toBinary64_eq
  rw [found] at stays ⊢
  rw [toRat, ← value]
  exact Binary64.isNearest_nearest d.negative num positive stays

/-- Reading decimals keeps order, as long as they do not overflow. -/
theorem toRat_toBinary64_le {c d : Decimal} (stays : c.toBinary64.isFinite = true)
    (stays' : d.toBinary64.isFinite = true) (order : c.toRat ≤ d.toRat) :
    c.toBinary64.toRat ≤ d.toBinary64.toRat := by
  obtain ⟨num, den, positive, value, found⟩ := c.toBinary64_eq
  obtain ⟨num', den', positive', value', found'⟩ := d.toBinary64_eq
  rw [found] at stays ⊢
  rw [found'] at stays' ⊢
  rw [toRat, toRat, ← value, ← value'] at order
  exact Binary64.toRat_nearest_le positive positive' stays stays' order

/-- Two decimals with the same sign and value. -/
structure SameNumber (c d : Decimal) : Prop where
  negative : c.negative = d.negative
  magnitude : c.magnitude = d.magnitude

theorem SameNumber.toBinary64 {c d : Decimal} (same : SameNumber c d) :
    c.toBinary64 = d.toBinary64 := by
  obtain ⟨num, den, positive, value, found⟩ := c.toBinary64_eq
  obtain ⟨num', den', positive', value', found'⟩ := d.toBinary64_eq
  rw [found, found', same.negative]
  exact Binary64.nearest_congr d.negative positive positive'
    (value.trans (same.magnitude.trans value'.symm))

theorem SameNumber.trans {b c d : Decimal} (first : SameNumber b c) (second : SameNumber c d) :
    SameNumber b d :=
  ⟨first.negative.trans second.negative, first.magnitude.trans second.magnitude⟩

/-- A decimal with the value of a double reads as that double. -/
theorem toBinary64_of_magnitude {d : Decimal} {m : ℕ} {e : ℤ}
    (canonical : (Binary64.finite d.negative m e).Canonical) (value : d.magnitude = m * 2 ^ e) :
    d.toBinary64 = .finite d.negative m e := by
  obtain ⟨num, den, positive, ratio, found⟩ := d.toBinary64_eq
  rw [found]
  exact Binary64.nearest_of_canonical canonical positive (ratio.trans value)

theorem sameNumber_withoutTrailingZeros (negative : Bool) (digits : ℕ) (exponent : ℤ) :
    SameNumber (withoutTrailingZeros negative digits exponent) ⟨negative, digits, exponent⟩ := by
  fun_induction withoutTrailingZeros negative digits exponent with
  | case1 exponent =>
      exact ⟨rfl, by rw [magnitude, magnitude, Nat.cast_zero, zero_mul, zero_mul]⟩
  | case2 digits exponent some multiple ih =>
      refine ih.trans ⟨rfl, ?_⟩
      have tens : digits = digits / 10 * 10 :=
        (Nat.div_mul_cancel (Nat.dvd_of_mod_eq_zero multiple)).symm
      rw [magnitude, magnitude, zpow_add_one₀ (by norm_num), mul_comm (_ ^ exponent), ← mul_assoc]
      exact_mod_cast congrArg (fun n : ℕ => (n : ℚ) * 10 ^ exponent) tens.symm
  | case3 => exact ⟨rfl, rfl⟩

theorem sameNumber_normal (d : Decimal) : SameNumber d.normal d :=
  sameNumber_withoutTrailingZeros d.negative d.digits d.exponent

end Decimal

namespace Binary64

/-- The expansion of a double has its exact value. -/
theorem magnitude_expansion (negative : Bool) (m : ℕ) (e : ℤ) :
    (expansion negative m e).magnitude = m * 2 ^ e := by
  unfold expansion Decimal.magnitude
  split_ifs with whole
  · lift e to ℕ using whole
    rw [Int.toNat_natCast, Nat.pow_eq, Nat.cast_mul, Nat.cast_pow, zpow_zero, mul_one, zpow_natCast]
    rfl
  · obtain ⟨places, rfl⟩ : ∃ places : ℕ, e = -(places : ℤ) := ⟨(-e).toNat, by omega⟩
    rw [neg_neg, Int.toNat_natCast, Nat.pow_eq, Nat.cast_mul, Nat.cast_pow, mul_assoc, zpow_neg,
      zpow_neg, zpow_natCast, zpow_natCast, Nat.cast_ofNat]
    have tens : (10 : ℚ) ^ places = 5 ^ places * 2 ^ places := by
      rw [← mul_pow]
      norm_num
    rw [tens, mul_inv, mul_inv_cancel_left₀ (by positivity)]

theorem negative_expansion (negative : Bool) (m : ℕ) (e : ℤ) :
    (expansion negative m e).negative = negative := by
  unfold expansion
  split <;> rfl

/-- The shortest decimal of a double reads back as that double. -/
theorem exists_shortest {negative : Bool} {m : ℕ} {e : ℤ}
    (canonical : (finite negative m e).Canonical) (some : m ≠ 0) :
    ∃ d, (finite negative m e).shortest = .some d ∧ d.toBinary64 = finite negative m e := by
  refine ⟨_, by rw [shortest, if_neg some], ?_⟩
  rw [(Decimal.sameNumber_normal _).toBinary64]
  rcases found : (shortestCandidates negative (ratio m e).1 (ratio m e).2).find?
      (fun d => d.toBinary64 == finite negative m e) with _ | d
  · have sign := negative_expansion negative m e
    rw [found, Option.getD_none, Decimal.toBinary64_of_magnitude (sign.symm ▸ canonical)
      (magnitude_expansion negative m e), sign]
  · have accepted := List.find?_some found
    rw [found, Option.getD_some]
    exact eq_of_beq accepted

end Binary64

end SceneLayout
