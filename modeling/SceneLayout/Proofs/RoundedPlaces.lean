import SceneLayout.Proofs.NearestDoubles

/-!
# Doubles rounded to decimal places

A double is rounded to places in two steps. Its exact value goes to the nearest multiple of the last
place, and this multiple goes to the nearest double. Each step keeps order, so both do. Doing it
again changes nothing: where doubles are closer together than the last place, the second step does
not leave the multiple far enough for the first one to find another; where they are further apart,
the first step does not leave the double far enough for the second one to find another.

Main statements: `isNearest_roundToPlaces`, `toRat_roundToPlaces_le`, `roundToPlaces_roundToPlaces`.
-/

namespace SceneLayout

theorem RoundsTo.neg {q : ℚ} {n : ℤ} (h : RoundsTo q n) : RoundsTo (-q) (-n) := by
  have distance : |-q - (-n : ℤ)| = |q - n| := by
    rw [Int.cast_neg, neg_sub_neg, abs_sub_comm]
  exact ⟨distance ▸ h.near, fun tie => (h.even (distance ▸ tie)).neg⟩

namespace Binary64

theorem ratio_snd_pos (m : ℕ) (e : ℤ) : 0 < (ratio m e).2 :=
  scaleDown_den_pos two_pos one_pos m (-e)

theorem ratio_eq (m : ℕ) (e : ℤ) : ((ratio m e).1 : ℚ) / (ratio m e).2 = m * 2 ^ e := by
  rw [ratio, ratio_scaleDown two_pos, Nat.cast_one, div_one, neg_neg, Nat.cast_ofNat]

variable {negative : Bool} {m : ℕ} {e : ℤ} {places : ℕ}

/-- The multiple of the last place that a magnitude is rounded to. -/
theorem roundToPlaces_finite (negative : Bool) (m : ℕ) (e : ℤ) (places : ℕ) :
    ∃ k : ℕ, RoundsTo (m * 2 ^ e * 10 ^ places) k ∧
      (finite negative m e).roundToPlaces places = nearest negative k (10 ^ places) := by
  refine ⟨_, ?_, rfl⟩
  have rounds := roundsTo_roundHalfEven ((ratio m e).1 * Nat.pow 10 places) (ratio_snd_pos m e)
  rw [Nat.cast_mul, mul_div_right_comm, ratio_eq] at rounds
  exact_mod_cast rounds

/-- The exact value goes to a multiple of the last place, and this to the nearest double. -/
theorem IsDouble.roundToPlaces_eq {x : Binary64} (h : x.IsDouble) (places : ℕ) :
    ∃ (negative : Bool) (k : ℕ) (n : ℤ), x.roundToPlaces places = nearest negative k (10 ^ places) ∧
      withSign negative ((k : ℚ) / (10 ^ places : ℕ)) = n / 10 ^ places ∧
      RoundsTo (x.toRat * 10 ^ places) n := by
  obtain ⟨negative, m, e, rfl, -⟩ := h.exists_eq_finite
  obtain ⟨k, rounds, found⟩ := roundToPlaces_finite negative m e places
  cases negative
  · exact ⟨false, k, k, found, by simp [withSign], rounds⟩
  · refine ⟨true, k, -k, found, ?_, ?_⟩
    · simp [withSign, neg_div]
    · have opposite := rounds.neg
      rw [← neg_mul] at opposite
      exact opposite

/-- A whole magnitude is not rounded. -/
theorem nearest_of_whole (canonical : (finite negative m e).Canonical) {k n : ℕ}
    (whole : (m : ℚ) * 2 ^ e = n) (rounds : RoundsTo (m * 2 ^ e * 10 ^ places) k) :
    nearest negative k (10 ^ places) = finite negative m e := by
  have exact : k = n * 10 ^ places := by
    have multiple := RoundsTo.intCast (n * 10 ^ places)
    rw [Int.cast_mul, Int.cast_pow, Int.cast_natCast, Int.cast_ofNat, ← whole] at multiple
    exact_mod_cast rounds.unique multiple
  refine nearest_of_canonical canonical (Nat.pow_pos (by decide)) ?_
  rw [whole, exact, Nat.cast_mul, mul_div_cancel_right₀]
  positivity

/-- A double with a whole exponent is a whole number. -/
theorem exists_whole (m : ℕ) (h : 0 ≤ e) : ∃ n : ℕ, (m : ℚ) * 2 ^ e = n := by
  lift e to ℕ using h
  exact ⟨m * 2 ^ e, by rw [zpow_natCast]; push_cast; rfl⟩

/-- A multiple of the last place is off by half of it at most. -/
theorem abs_sub_le_of_roundsTo {q : ℚ} {k : ℤ} (rounds : RoundsTo (q * 10 ^ places) k) :
    |q - k / 10 ^ places| ≤ 1 / (2 * 10 ^ places) := by
  have power : (0 : ℚ) < 10 ^ places := by positivity
  have scaled : q - k / 10 ^ places = (q * 10 ^ places - k) / 10 ^ places := by
    rw [sub_div, mul_div_cancel_right₀ _ power.ne']
  rw [scaled, abs_div, abs_of_pos power, ← div_div]
  exact div_le_div_of_nonneg_right rounds.near power.le

/-- A double with binary places does not become great by rounding it to decimal places. -/
theorem multiple_lt_of_fractional (small : m < mantissaBound) (fractional : e < 0) {k : ℕ}
    (rounds : RoundsTo (m * 2 ^ e * 10 ^ places) k) :
    (k : ℚ) / (10 ^ places : ℕ) < 2 ^ (1000 : ℤ) := by
  have mantissa : (m : ℚ) ≤ 0x20000000000000 := by exact_mod_cast small.le
  have below : (m : ℚ) * 2 ^ e ≤ 0x20000000000000 :=
    (mul_le_of_le_one_right (Nat.cast_nonneg m)
      (zpow_le_one_of_nonpos₀ one_le_two fractional.le)).trans mantissa
  have near := (abs_le.mp (abs_sub_le_of_roundsTo rounds)).1
  have one : (1 : ℚ) ≤ 10 ^ places := one_le_pow₀ (by norm_num)
  have place : 1 / (2 * 10 ^ places : ℚ) ≤ 1 := (div_le_one (by positivity)).mpr (by linarith)
  rw [Int.cast_natCast] at near
  rw [Nat.cast_pow, Nat.cast_ofNat]
  calc (k : ℚ) / 10 ^ places ≤ 0x20000000000000 + 1 := by linarith
    _ < 2 ^ (100 : ℤ) := by norm_num
    _ ≤ 2 ^ (1000 : ℤ) := zpow_le_zpow_right₀ one_le_two (by norm_num)

/-- Rounding a finite double to places gives a finite double. -/
theorem IsDouble.roundToPlaces {x : Binary64} (h : x.IsDouble) (places : ℕ) :
    (x.roundToPlaces places).IsDouble := by
  obtain ⟨negative, m, e, rfl, canonical⟩ := h.exists_eq_finite
  obtain ⟨k, rounds, found⟩ := roundToPlaces_finite negative m e places
  have power : 0 < 10 ^ places := Nat.pow_pos (by decide)
  rw [found]
  refine ⟨canonical_nearest negative k power, ?_⟩
  rcases le_or_gt 0 e with whole | fractional
  · obtain ⟨n, whole⟩ := exists_whole m whole
    rw [nearest_of_whole canonical whole rounds]
    rfl
  · exact isFinite_nearest power
      (multiple_lt_of_fractional canonical.2.2.1 fractional rounds)

/-- Rounding to places keeps order. -/
theorem IsDouble.toRat_roundToPlaces_le {x y : Binary64} (first : x.IsDouble) (second : y.IsDouble)
    (order : x.toRat ≤ y.toRat) (places : ℕ) :
    (x.roundToPlaces places).toRat ≤ (y.roundToPlaces places).toRat := by
  have stays := (first.roundToPlaces places).isFinite
  have stays' := (second.roundToPlaces places).isFinite
  obtain ⟨negative, k, n, found, value, rounds⟩ := first.roundToPlaces_eq places
  obtain ⟨negative', k', n', found', value', rounds'⟩ := second.roundToPlaces_eq places
  have power : (0 : ℚ) ≤ 10 ^ places := by positivity
  rw [found] at stays ⊢
  rw [found'] at stays' ⊢
  refine toRat_nearest_le (Nat.pow_pos (by decide)) (Nat.pow_pos (by decide)) stays stays' ?_
  rw [value, value']
  have multiples : n ≤ n' := rounds.mono rounds' (mul_le_mul_of_nonneg_right order power)
  exact div_le_div_of_nonneg_right (Int.cast_le.mpr multiples) power

/-- Where doubles are closer together than the ninth place, a multiple of the place is found again
from the double that is nearest to it. -/
theorem eq_of_roundsTo_of_fine {k k' : ℕ} (fine : e ≤ -30)
    (near : |(k : ℚ) / 10 ^ 9 - m * 2 ^ e| ≤ 2 ^ e / 2)
    (rounds : RoundsTo (m * 2 ^ e * 10 ^ 9) k') : k' = k := by
  have gap : (2 : ℚ) ^ e ≤ 2 ^ (-30 : ℤ) := zpow_le_zpow_right₀ one_le_two fine
  have ninth : (0 : ℚ) < 10 ^ 9 := by positivity
  have multiple : ((k : ℚ) / 10 ^ 9 - m * 2 ^ e) * 10 ^ 9 = k - m * 2 ^ e * 10 ^ 9 := by
    rw [sub_mul, div_mul_cancel₀ _ ninth.ne']
  have close : |(m : ℚ) * 2 ^ e * 10 ^ 9 - (k : ℤ)| < 1 / 2 := by
    rw [abs_sub_comm, Int.cast_natCast, ← multiple, abs_mul, abs_of_pos ninth]
    norm_num at gap ⊢
    linarith
  exact_mod_cast rounds.unique (.of_abs_lt close)

/-- Where doubles are further apart than the ninth place, a double is found again from the multiple
of the place that is nearest to it. -/
theorem nearest_of_roundsTo_of_coarse (canonical : (finite negative m e).Canonical)
    (coarse : -29 ≤ e) {k : ℕ} (rounds : RoundsTo (m * 2 ^ e * 10 ^ 9) k) :
    nearest negative k (10 ^ 9) = finite negative m e := by
  have power : (0 : ℚ) < 2 ^ e := by positivity
  have gap : (2 : ℚ) ^ (-29 : ℤ) ≤ 2 ^ e := zpow_le_zpow_right₀ one_le_two coarse
  have normal : hiddenBit ≤ m := by
    have normal := canonical.2.2.2.resolve_left fun least => by
      rw [leastExponent] at least
      omega
    rw [mantissaBound] at normal
    rw [hiddenBit]
    omega
  rcases normal.eq_or_lt with power_of_two | above
  · -- Doubles below a power of two are closer together, but the power itself is whole.
    obtain ⟨n, whole⟩ := exists_whole 1 (show 0 ≤ e + 52 by omega)
    refine nearest_of_whole canonical (n := n) ?_ rounds
    rw [← whole, ← power_of_two, zpow_add₀ two_ne_zero, Nat.cast_one, one_mul, mul_comm]
    norm_num [hiddenBit]
  · have near := abs_sub_le_of_roundsTo rounds
    rw [Int.cast_natCast] at near
    have half : |(m : ℚ) * 2 ^ e - k / 10 ^ 9| < 2 ^ e / 2 := by
      norm_num at gap near ⊢
      linarith
    obtain ⟨lower, upper⟩ := abs_lt.mp half
    have bound : (m : ℚ) + 1 ≤ 2 ^ (53 : ℤ) := by
      have small := canonical.2.2.1
      rw [mantissaBound] at small
      exact_mod_cast small
    have least : (2 : ℚ) ^ (52 : ℤ) + 1 ≤ m := by
      rw [hiddenBit] at above
      exact_mod_cast above
    rw [nearest_eq_of_roundsAt negative (Nat.pow_pos (by decide)) (m := m) (e := e) ?_,
      ofRounded_of_canonical canonical]
    rw [Nat.cast_pow, Nat.cast_ofNat]
    refine ⟨by positivity, ⟨canonical.1, ?_, .inr ?_⟩, .of_abs_lt ?_⟩
    · rw [zpow_add₀ two_ne_zero]
      have := mul_le_mul_of_nonneg_left bound power.le
      linarith
    · rw [zpow_add₀ two_ne_zero]
      have := mul_le_mul_of_nonneg_left least power.le
      linarith
    · refine lt_of_mul_lt_mul_right ?_ power.le
      rw [← RoundsAt.abs_sub_scaled, Int.cast_natCast, abs_sub_comm, one_div_mul_eq_div]
      exact half

/-- What is nearest to a ratio is off by half of its last binary digit at most. -/
theorem exists_nearest_eq_finite {num den : ℕ} (h : 0 < den)
    (stays : (nearest negative num den).isFinite = true) :
    ∃ m e, nearest negative num den = finite negative m e ∧
      |(num : ℚ) / den - m * 2 ^ e| ≤ 2 ^ e / 2 := by
  obtain ⟨n, f, rounds, found⟩ := nearest_eq negative num h
  have near := rounds.error_le
  have small := rounds.mantissa_le
  rw [found] at stays ⊢
  unfold ofRounded ofRounded.ofScaled at stays ⊢
  split_ifs at stays ⊢ with fits inside inside
  · exact ⟨n, f, rfl, near⟩
  · cases stays
  · refine ⟨n / 2, f + 1, rfl, ?_⟩
    have even : n = n / 2 * 2 := by
      rw [mantissaBound] at fits small
      omega
    have same : ((n / 2 : ℕ) : ℚ) * 2 ^ (f + 1) = n * 2 ^ f := by
      rw [zpow_add_one₀ two_ne_zero, mul_comm (_ ^ f), ← mul_assoc]
      exact_mod_cast congrArg (fun half : ℕ => (half : ℚ) * 2 ^ f) even.symm
    have power : (0 : ℚ) < 2 ^ f := by positivity
    rw [same, zpow_add_one₀ two_ne_zero]
    linarith
  · cases stays

/-- What is nearest to a multiple of the ninth place is not rounded to that place any more. -/
theorem roundToPlaces_nearest {k : ℕ} (stays : (nearest negative k (10 ^ 9)).isFinite = true) :
    (nearest negative k (10 ^ 9)).roundToPlaces 9 = nearest negative k (10 ^ 9) := by
  have positive : 0 < 10 ^ 9 := Nat.pow_pos (by decide)
  have canonical := canonical_nearest negative k positive
  obtain ⟨m, e, found, near⟩ := exists_nearest_eq_finite positive stays
  obtain ⟨k', rounds, again⟩ := roundToPlaces_finite negative m e 9
  rw [found] at canonical
  rw [found, again]
  rcases lt_or_ge e (-29) with fine | coarse
  · rw [Nat.cast_pow, Nat.cast_ofNat] at near
    rw [eq_of_roundsTo_of_fine (by omega) near rounds, found]
  · exact nearest_of_roundsTo_of_coarse canonical coarse rounds

/-- Rounding to nine places twice is rounding once. -/
theorem IsDouble.roundToPlaces_roundToPlaces {x : Binary64} (h : x.IsDouble) :
    (x.roundToPlaces 9).roundToPlaces 9 = x.roundToPlaces 9 := by
  have stays := (h.roundToPlaces 9).isFinite
  obtain ⟨negative, k, -, found, -⟩ := h.roundToPlaces_eq 9
  rw [found] at stays ⊢
  exact roundToPlaces_nearest stays

/-- The exact value of a double is rounded to a multiple of the last place, and that to the nearest
double. -/
theorem IsDouble.isNearest_roundToPlaces {x : Binary64} (h : x.IsDouble) (places : ℕ) :
    ∃ n : ℤ, RoundsTo (x.toRat * 10 ^ places) n ∧
      (x.roundToPlaces places).IsNearest (n / 10 ^ places) := by
  have stays := (h.roundToPlaces places).isFinite
  obtain ⟨negative, k, n, found, value, rounds⟩ := h.roundToPlaces_eq places
  refine ⟨n, rounds, ?_⟩
  rw [found] at stays ⊢
  rw [← value]
  exact isNearest_nearest negative k (Nat.pow_pos (by decide)) stays

end Binary64

end SceneLayout
