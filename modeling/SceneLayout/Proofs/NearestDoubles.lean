import Mathlib.Algebra.Order.Ring.Rat
import Mathlib.Tactic.Linarith
import Mathlib.Tactic.Ring
import SceneLayout.Proofs.CanonicalRounding

/-!
# Rounding gives the nearest double

A ratio is rounded in two steps: its size decides an exponent, and at that exponent it is rounded to
a whole mantissa. The exponent grows with the ratio and so does the mantissa at one exponent. Hence
rounding keeps order, it depends on nothing but the ratio, and it is known once an exponent and a
mantissa are found that suit the ratio. The doubles of a higher exponent are multiples of the same
power of two, and those of a lower one are all further away, so what is found is nearest among all.

Main statements: `isNearest_nearest`, `toRat_nearest_le`, `nearest_eq_of_roundsAt`.
-/

namespace SceneLayout

/-! ## Whole numbers -/

/-- `n` is a whole number nearest to `q`, and the even one where two are equally near. -/
structure RoundsTo (q : ℚ) (n : ℤ) : Prop where
  near : |q - n| ≤ 1 / 2
  even : |q - n| = 1 / 2 → Even n

namespace RoundsTo

variable {q r : ℚ} {m n : ℤ}

theorem of_abs_lt (h : |q - n| < 1 / 2) : RoundsTo q n := ⟨h.le, fun tie => absurd tie h.ne⟩

theorem intCast (n : ℤ) : RoundsTo n n := of_abs_lt (by rw [sub_self, abs_zero]; exact one_half_pos)

/-- Rounding keeps order. -/
theorem mono (first : RoundsTo q m) (second : RoundsTo r n) (h : q ≤ r) : m ≤ n := by
  by_contra above
  have step : (n : ℚ) + 1 ≤ m := by exact_mod_cast not_le.mp above
  have lower := (abs_le.mp first.near).1
  have upper := (abs_le.mp second.near).2
  -- Both numbers lie halfway between `n` and `m`, which is the next whole number.
  have next : m = n + 1 := by
    have next : (m : ℚ) = n + 1 := by linarith
    exact_mod_cast next
  have evenUpper : Even m := first.even (by rw [abs_of_nonpos] <;> linarith)
  have evenLower : Even n := second.even (by rw [abs_of_nonneg] <;> linarith)
  rw [next, Int.even_add_one] at evenUpper
  exact evenUpper evenLower

theorem unique (first : RoundsTo q m) (second : RoundsTo q n) : m = n :=
  le_antisymm (first.mono second le_rfl) (second.mono first le_rfl)

/-- Every other whole number is half of one away at least. -/
theorem half_le (h : RoundsTo q m) (other : n ≠ m) : 1 / 2 ≤ |q - n| := by
  have apart : (1 : ℚ) ≤ |(m : ℚ) - n| := by
    exact_mod_cast Int.one_le_abs (sub_ne_zero.mpr other.symm)
  have through := abs_sub_le (m : ℚ) q n
  rw [abs_sub_comm (m : ℚ) q] at through
  linarith [h.near]

theorem abs_sub_le (h : RoundsTo q m) (n : ℤ) : |q - m| ≤ |q - n| := by
  rcases eq_or_ne n m with rfl | other
  · exact le_rfl
  · exact h.near.trans (h.half_le other)

/-- Only an even number is as near as another one. -/
theorem even_of_tie (h : RoundsTo q m) (other : n ≠ m) (tie : |q - n| = |q - m|) : Even m :=
  h.even (le_antisymm h.near (tie ▸ h.half_le other))

end RoundsTo

/-- A quotient is rounded to a whole number nearest to it. -/
theorem roundsTo_roundHalfEven (num : Nat) {den : Nat} (h : 0 < den) :
    RoundsTo ((num : ℚ) / den) (roundHalfEven num den : Nat) := by
  have positive : (0 : ℚ) < den := Nat.cast_pos.mpr h
  have parts : (num : ℚ) / den = (num / den : ℕ) + (num % den : ℕ) / den := by
    rw [div_eq_iff positive.ne', add_mul, div_mul_cancel₀ _ positive.ne']
    exact_mod_cast (Nat.div_add_mod' num den).symm
  have nonneg : (0 : ℚ) ≤ (num % den : ℕ) / den := by positivity
  rw [parts]
  unfold roundHalfEven
  dsimp only
  split_ifs with below above
  · apply RoundsTo.of_abs_lt
    rw [Int.cast_natCast, add_sub_cancel_left, abs_of_nonneg nonneg, div_lt_iff₀ positive]
    have below : (2 : ℚ) * (num % den : ℕ) < den := by exact_mod_cast below
    linarith
  · have proper : ((num % den : ℕ) : ℚ) / den < 1 := by
      rw [div_lt_one positive]
      exact_mod_cast Nat.mod_lt num h
    have great : 1 / 2 < ((num % den : ℕ) : ℚ) / den := by
      have above : (den : ℚ) < 2 * (num % den : ℕ) := by exact_mod_cast above
      rw [lt_div_iff₀ positive]
      linarith
    apply RoundsTo.of_abs_lt
    rw [Nat.cast_succ, Int.cast_add, Int.cast_natCast, Int.cast_one, add_sub_add_left_eq_sub,
      abs_sub_comm, abs_of_nonneg] <;> linarith
  · have half : ((num % den : ℕ) : ℚ) / den = 1 / 2 := by
      have exact : 2 * (num % den) = den := by omega
      rw [div_eq_div_iff positive.ne' two_ne_zero, mul_comm, one_mul]
      exact_mod_cast exact
    rw [half]
    rcases Nat.mod_two_eq_zero_or_one (num / den) with even | odd
    · rw [even, Nat.add_zero]
      refine ⟨?_, fun _ => (Int.even_coe_nat _).mpr (Nat.even_iff.mpr even)⟩
      rw [Int.cast_natCast, add_sub_cancel_left, abs_of_pos one_half_pos]
    · rw [odd]
      refine ⟨?_, fun _ => (Int.even_coe_nat _).mpr (Nat.even_add_one.mpr ?_)⟩
      · rw [Int.cast_natCast, Nat.cast_add, add_sub_add_left_eq_sub, abs_sub_comm, Nat.cast_one,
          sub_half, abs_of_pos one_half_pos]
      · rwa [Nat.not_even_iff]

namespace Binary64

/-! ## Exponents -/

/-- The exponent at which a number that is not negative has a mantissa of 53 binary digits before
its point, or less at the least exponent. -/
structure FitsAt (q : ℚ) (e : ℤ) : Prop where
  least : leastExponent ≤ e
  below : q < 2 ^ (e + 53)
  above : e = leastExponent ∨ 2 ^ (e + 52) ≤ q

/-- A greater number has no lower exponent. -/
theorem FitsAt.mono {q r : ℚ} {e f : ℤ} (first : FitsAt q e) (second : FitsAt r f) (h : q ≤ r) :
    e ≤ f := by
  rcases first.above with rfl | above
  · exact second.least
  · have powers : (2 : ℚ) ^ (e + 52) < 2 ^ (f + 53) := above.trans_lt (h.trans_lt second.below)
    have exponents := (zpow_lt_zpow_iff_right₀ one_lt_two).mp powers
    omega

theorem FitsAt.unique {q : ℚ} {e f : ℤ} (first : FitsAt q e) (second : FitsAt q f) : e = f :=
  le_antisymm (first.mono second le_rfl) (second.mono first le_rfl)

theorem fitsAt_zero : FitsAt 0 leastExponent := ⟨le_rfl, by positivity, .inl rfl⟩

theorem fitsAt_exponentOf {num den : Nat} (hn : num ≠ 0) (hd : den ≠ 0) :
    FitsAt ((num : ℚ) / den) (exponentOf num den) := by
  obtain ⟨below, above⟩ := scaled_between hn hd
  have power : (0 : ℚ) < 2 ^ exponentOf num den := by positivity
  rw [zpow_neg, ← div_eq_mul_inv] at below above
  refine ⟨le_max_left .., ?_, above.imp_right fun above => ?_⟩
  · rw [zpow_add₀ two_ne_zero]
    exact (div_lt_iff₀' power).mp below
  · rw [zpow_add₀ two_ne_zero]
    exact (le_div_iff₀' power).mp above

/-! ## Rounding at an exponent -/

/-- A number that is not negative is rounded to `m * 2 ^ e`. -/
structure RoundsAt (q : ℚ) (m : ℕ) (e : ℤ) : Prop where
  nonneg : 0 ≤ q
  fits : FitsAt q e
  rounds : RoundsTo (q * 2 ^ (-e)) m

theorem roundsAt_zero : RoundsAt 0 0 leastExponent :=
  ⟨le_rfl, fitsAt_zero, by rw [zero_mul]; exact .intCast 0⟩

/-- What is nearest to a ratio is told by an exponent and a mantissa that it is rounded to. -/
theorem nearest_eq (negative : Bool) (num : Nat) {den : Nat} (h : 0 < den) :
    ∃ m e, RoundsAt ((num : ℚ) / den) m e ∧ nearest negative num den = ofRounded negative m e := by
  by_cases zero : num = 0
  · refine ⟨0, leastExponent, ?_, by rw [nearest, if_pos zero]; rfl⟩
    rw [zero, Nat.cast_zero, zero_div]
    exact roundsAt_zero
  · have positive := scaleDown_den_pos two_pos h num (exponentOf num den)
    have scaled := ratio_scaleDown two_pos num den (exponentOf num den)
    rw [Nat.cast_ofNat] at scaled
    refine ⟨_, _, ⟨by positivity, fitsAt_exponentOf zero h.ne', ?_⟩, by rw [nearest, if_neg zero]⟩
    rw [← scaled]
    exact roundsTo_roundHalfEven _ positive

namespace RoundsAt

variable {q r : ℚ} {m n : ℕ} {e f : ℤ}

theorem unique (first : RoundsAt q m e) (second : RoundsAt q n f) : m = n ∧ e = f := by
  obtain rfl := first.fits.unique second.fits
  exact ⟨by exact_mod_cast first.rounds.unique second.rounds, rfl⟩

theorem scaled_lt (h : RoundsAt q m e) : q * 2 ^ (-e) < (mantissaBound : ℤ) := by
  have bound : ((mantissaBound : ℤ) : ℚ) = 2 ^ (53 : ℤ) := by
    norm_num [mantissaBound]
  rw [zpow_neg, ← div_eq_mul_inv, div_lt_iff₀ (by positivity), bound, ← zpow_add₀ two_ne_zero,
    add_comm]
  exact h.fits.below

theorem mantissa_le (h : RoundsAt q m e) : m ≤ mantissaBound := by
  exact_mod_cast h.rounds.mono (.intCast _) h.scaled_lt.le

theorem hiddenBit_le_scaled (above : 2 ^ (e + 52) ≤ q) :
    ((hiddenBit : ℤ) : ℚ) ≤ q * 2 ^ (-e) := by
  have bound : ((hiddenBit : ℤ) : ℚ) = 2 ^ (52 : ℤ) := by
    norm_num [hiddenBit]
  rw [zpow_neg, ← div_eq_mul_inv, le_div_iff₀ (by positivity), bound, ← zpow_add₀ two_ne_zero,
    add_comm]
  exact above

theorem le_mantissa (h : RoundsAt q m e) : e = leastExponent ∨ hiddenBit ≤ m :=
  h.fits.above.imp_right fun above => by
    exact_mod_cast RoundsTo.mono (.intCast _) h.rounds (hiddenBit_le_scaled above)

/-- Rounding to 53 binary digits keeps order. -/
theorem mono (first : RoundsAt q m e) (second : RoundsAt r n f) (h : q ≤ r) :
    (m : ℚ) * 2 ^ e ≤ n * 2 ^ f := by
  rcases (first.fits.mono second.fits h).eq_or_lt with rfl | lower
  · have mantissas : m ≤ n := by
      exact_mod_cast first.rounds.mono second.rounds
        (mul_le_mul_of_nonneg_right h (by positivity))
    gcongr
  · -- There is a power of two between the numbers, and it is a double.
    have great : hiddenBit ≤ n := by
      refine second.le_mantissa.resolve_left fun least => ?_
      have := first.fits.least
      omega
    calc (m : ℚ) * 2 ^ e ≤ mantissaBound * 2 ^ e := by
          gcongr
          exact first.mantissa_le
      _ = 2 ^ (e + 53) := by
          rw [zpow_add₀ two_ne_zero, mul_comm]
          norm_num [mantissaBound]
      _ ≤ 2 ^ (f + 52) := zpow_le_zpow_right₀ one_le_two (by omega)
      _ = hiddenBit * 2 ^ f := by
          rw [zpow_add₀ two_ne_zero, mul_comm]
          norm_num [hiddenBit]
      _ ≤ n * 2 ^ f := by gcongr

theorem abs_sub_scaled (q : ℚ) (n e : ℤ) : |q - n * 2 ^ e| = |q * 2 ^ (-e) - n| * 2 ^ e := by
  have power : (0 : ℚ) < 2 ^ e := by positivity
  rw [← abs_of_pos power, ← abs_mul, abs_of_pos power, sub_mul, mul_assoc, ← zpow_add₀ two_ne_zero,
    neg_add_cancel, zpow_zero, mul_one]

/-- A rounded number is off by half of the last binary digit at most. -/
theorem error_le (h : RoundsAt q m e) : |q - m * 2 ^ e| ≤ 2 ^ e / 2 := by
  rw [← Int.cast_natCast m, abs_sub_scaled, div_eq_mul_inv, mul_comm ((2 : ℚ) ^ e), ← one_div]
  exact mul_le_mul_of_nonneg_right h.rounds.near (by positivity)

/-- Doubles of a lower exponent than a number is rounded at are further away than what it is rounded
to. -/
theorem nearer_of_lower (h : RoundsAt q m e) {z : ℤ} (least : leastExponent ≤ f) (lower : f < e)
    (small : |z| < mantissaBound) : |q - m * 2 ^ e| < |q - z * 2 ^ f| := by
  have great : (2 : ℚ) ^ (e + 52) ≤ q := h.fits.above.resolve_left (by omega)
  have power : ((hiddenBit : ℤ) : ℚ) * 2 ^ e = 2 ^ (e + 52) := by
    rw [zpow_add₀ two_ne_zero, mul_comm]
    norm_num [hiddenBit]
  have under : (z : ℚ) * 2 ^ f < 2 ^ (e + 52) := by
    calc (z : ℚ) * 2 ^ f < mantissaBound * 2 ^ f := by
          gcongr
          exact_mod_cast (le_abs_self z).trans_lt small
      _ = 2 ^ (f + 53) := by
          rw [zpow_add₀ two_ne_zero, mul_comm]
          norm_num [mantissaBound]
      _ ≤ 2 ^ (e + 52) := zpow_le_zpow_right₀ one_le_two (by omega)
  calc |q - m * 2 ^ e| ≤ |q - (hiddenBit : ℤ) * 2 ^ e| := by
        rw [← Int.cast_natCast m, abs_sub_scaled, abs_sub_scaled]
        exact mul_le_mul_of_nonneg_right (h.rounds.abs_sub_le _) (by positivity)
    _ = q - 2 ^ (e + 52) := by rw [power, abs_of_nonneg (sub_nonneg.mpr great)]
    _ < q - z * 2 ^ f := sub_lt_sub_left under q
    _ ≤ |q - z * 2 ^ f| := le_abs_self _

/-- Doubles of at least the exponent that a number is rounded at are multiples of the same power. -/
theorem exists_multiple (z : ℤ) (h : e ≤ f) : ∃ n : ℤ, (z : ℚ) * 2 ^ f = n * 2 ^ e := by
  obtain ⟨more, rfl⟩ := Int.le.dest h
  refine ⟨z * 2 ^ more, ?_⟩
  rw [zpow_add₀ two_ne_zero, zpow_natCast]
  push_cast
  ring

theorem near (h : RoundsAt q m e) {z : ℤ} (least : leastExponent ≤ f)
    (small : |z| < mantissaBound) : |q - m * 2 ^ e| ≤ |q - z * 2 ^ f| := by
  rcases le_or_gt e f with higher | lower
  · obtain ⟨n, multiple⟩ := exists_multiple z higher
    rw [multiple, ← Int.cast_natCast m, abs_sub_scaled, abs_sub_scaled]
    exact mul_le_mul_of_nonneg_right (h.rounds.abs_sub_le n) (by positivity)
  · exact (h.nearer_of_lower least lower small).le

theorem even_of_tie (h : RoundsAt q m e) {z : ℤ} (least : leastExponent ≤ f)
    (small : |z| < mantissaBound) (other : (z : ℚ) * 2 ^ f ≠ m * 2 ^ e)
    (tie : |q - z * 2 ^ f| = |q - m * 2 ^ e|) : Even m := by
  rcases le_or_gt e f with higher | lower
  · obtain ⟨n, multiple⟩ := exists_multiple z higher
    rw [multiple, ← Int.cast_natCast m] at other
    rw [multiple, ← Int.cast_natCast m, abs_sub_scaled, abs_sub_scaled] at tie
    have tie := mul_right_cancel₀ (by positivity) tie
    refine (Int.even_coe_nat m).mp (h.rounds.even_of_tie ?_ tie)
    rintro rfl
    exact other rfl
  · exact absurd tie (h.nearer_of_lower least lower small).ne'

end RoundsAt

/-! ## Values -/

/-- A magnitude with a sign. -/
def withSign (negative : Bool) (q : ℚ) : ℚ := if negative then -q else q

/-- The exact value of a finite double. -/
def toRat : Binary64 → ℚ
  | finite negative mantissa exponent => withSign negative (mantissa * 2 ^ exponent)
  | _ => 0

/-- A finite double in its canonical form. -/
structure IsDouble (x : Binary64) : Prop where
  canonical : x.Canonical
  isFinite : x.isFinite = true

theorem IsDouble.exists_eq_finite {x : Binary64} (h : x.IsDouble) :
    ∃ negative m e, x = finite negative m e ∧ (finite negative m e).Canonical := by
  rcases x with _ | _ | ⟨negative, m, e⟩
  · cases h.isFinite
  · cases h.isFinite
  · exact ⟨negative, m, e, rfl, h.canonical⟩

/-- A canonical magnitude is rounded to itself. -/
theorem roundsAt_of_canonical {negative : Bool} {m : ℕ} {e : ℤ}
    (canonical : (finite negative m e).Canonical) : RoundsAt (m * 2 ^ e) m e := by
  obtain ⟨least, -, small, normal⟩ := canonical
  have power : (0 : ℚ) < 2 ^ e := by positivity
  refine ⟨by positivity, ⟨least, ?_, normal.imp_right fun normal => ?_⟩, ?_⟩
  · rw [zpow_add₀ two_ne_zero, mul_comm]
    refine mul_lt_mul_of_pos_left ?_ power
    rw [mantissaBound] at small
    exact_mod_cast small
  · rw [zpow_add₀ two_ne_zero, mul_comm]
    refine mul_le_mul_of_nonneg_right ?_ power.le
    rw [mantissaBound] at normal
    have normal : 0x10000000000000 ≤ m := by omega
    exact_mod_cast normal
  · rw [mul_assoc, ← zpow_add₀ two_ne_zero, add_neg_cancel, zpow_zero, mul_one, ← Int.cast_natCast]
    exact .intCast _

/-- A rounded number is a double with that value, unless it overflows. -/
theorem toRat_ofRounded {negative : Bool} {m : ℕ} {e : ℤ} (small : m ≤ mantissaBound)
    (stays : (ofRounded negative m e).isFinite = true) :
    (ofRounded negative m e).toRat = withSign negative (m * 2 ^ e) := by
  unfold ofRounded ofRounded.ofScaled at stays ⊢
  split_ifs at stays ⊢ with fits inside inside
  · rfl
  · exact absurd stays Bool.false_ne_true
  · -- The mantissa has reached the bound and loses a binary zero to the exponent.
    have reached : m = mantissaBound := by omega
    rw [toRat, zpow_add_one₀ two_ne_zero, reached]
    congr 1
    norm_num [mantissaBound]
    ring
  · exact absurd stays Bool.false_ne_true

/-- The mantissa of a finite double. -/
def mantissa : Binary64 → Nat
  | finite _ mantissa _ => mantissa
  | _ => 0

/-- The double is as near to the number as any double is. Where another double is as near, it is the
one with the even mantissa. -/
structure IsNearest (q : ℚ) (x : Binary64) : Prop where
  isDouble : x.IsDouble
  near : ∀ y : Binary64, y.IsDouble → |q - x.toRat| ≤ |q - y.toRat|
  even : ∀ y : Binary64, y.IsDouble → y.toRat ≠ x.toRat → |q - y.toRat| = |q - x.toRat| →
    Even x.mantissa

/-- A double with either sign is a whole number of at most 53 binary digits times a power of two. -/
theorem IsDouble.exists_withSign_toRat_eq (negative : Bool) {y : Binary64} (h : y.IsDouble) :
    ∃ z e : ℤ, leastExponent ≤ e ∧ |z| < mantissaBound ∧ withSign negative y.toRat = z * 2 ^ e := by
  obtain ⟨sign, m, e, rfl, least, -, small, -⟩ := h.exists_eq_finite
  refine ⟨if negative = sign then m else -m, e, least, ?_, ?_⟩
  · cases negative <;> cases sign <;> simpa using small
  · cases negative <;> cases sign <;> simp [toRat, withSign]

theorem abs_withSign_sub (negative : Bool) (q r : ℚ) :
    |withSign negative q - r| = |q - withSign negative r| := by
  cases negative
  · rfl
  · change |-q - r| = |q - -r|
    rw [← neg_add', abs_neg, sub_neg_eq_add]

@[simp] theorem withSign_withSign (negative : Bool) (q : ℚ) :
    withSign negative (withSign negative q) = q := by
  cases negative
  · rfl
  · exact neg_neg q

theorem even_mantissa_ofRounded {negative : Bool} {m : ℕ} {e : ℤ} (small : m ≤ mantissaBound)
    (even : Even m) : Even (ofRounded negative m e).mantissa := by
  unfold ofRounded ofRounded.ofScaled
  split_ifs with fits inside inside
  · exact even
  · exact Even.zero
  · have reached : m = mantissaBound := by omega
    rw [reached, mantissa]
    decide
  · exact Even.zero

/-- Rounding a ratio gives the nearest double, unless it overflows. -/
theorem isNearest_nearest (negative : Bool) (num : Nat) {den : Nat} (h : 0 < den)
    (stays : (nearest negative num den).isFinite = true) :
    (nearest negative num den).IsNearest (withSign negative ((num : ℚ) / den)) := by
  have canonical := canonical_nearest negative num h
  obtain ⟨m, e, rounds, found⟩ := nearest_eq negative num h
  rw [found] at canonical stays ⊢
  have value := toRat_ofRounded rounds.mantissa_le stays
  refine ⟨⟨canonical, stays⟩, ?_, ?_⟩
  · intro y double
    obtain ⟨z, f, least, small, other⟩ := double.exists_withSign_toRat_eq negative
    rw [abs_withSign_sub, abs_withSign_sub, value, withSign_withSign, other]
    exact rounds.near least small
  · intro y double apart tie
    obtain ⟨z, f, least, small, other⟩ := double.exists_withSign_toRat_eq negative
    apply even_mantissa_ofRounded rounds.mantissa_le
    apply rounds.even_of_tie least small
    · intro same
      rw [value, ← same, ← other, withSign_withSign] at apart
      exact apart rfl
    · rw [abs_withSign_sub, abs_withSign_sub, value, withSign_withSign, other] at tie
      exact tie

/-! ## Rounding as a function of the number -/

/-- An exponent and a mantissa that a ratio is rounded to tell what is nearest to it. -/
theorem nearest_eq_of_roundsAt (negative : Bool) {num den : Nat} (h : 0 < den) {m : ℕ} {e : ℤ}
    (rounds : RoundsAt ((num : ℚ) / den) m e) :
    nearest negative num den = ofRounded negative m e := by
  obtain ⟨n, f, found, equation⟩ := nearest_eq negative num h
  obtain ⟨rfl, rfl⟩ := found.unique rounds
  exact equation

/-- Equal ratios are rounded to the same double. -/
theorem nearest_congr (negative : Bool) {num den num' den' : Nat} (h : 0 < den) (h' : 0 < den')
    (same : (num : ℚ) / den = (num' : ℚ) / den') :
    nearest negative num den = nearest negative num' den' := by
  obtain ⟨m, e, rounds, equation⟩ := nearest_eq negative num' h'
  rw [equation]
  exact nearest_eq_of_roundsAt negative h (same ▸ rounds)

theorem ofRounded_of_canonical {negative : Bool} {m : ℕ} {e : ℤ}
    (canonical : (finite negative m e).Canonical) :
    ofRounded negative m e = finite negative m e := by
  obtain ⟨-, great, small, -⟩ := canonical
  rw [ofRounded, if_pos small, ofRounded.ofScaled, if_pos great]

/-- A double is nearest to its own value. -/
theorem nearest_of_canonical {negative : Bool} {m : ℕ} {e : ℤ}
    (canonical : (finite negative m e).Canonical) {num den : Nat} (h : 0 < den)
    (value : (num : ℚ) / den = m * 2 ^ e) : nearest negative num den = finite negative m e := by
  rw [nearest_eq_of_roundsAt negative h (value ▸ roundsAt_of_canonical canonical),
    ofRounded_of_canonical canonical]

/-- Rounding ratios with signs keeps order, as long as they do not overflow. -/
theorem toRat_nearest_le {negative negative' : Bool} {num den num' den' : Nat} (h : 0 < den)
    (h' : 0 < den') (stays : (nearest negative num den).isFinite = true)
    (stays' : (nearest negative' num' den').isFinite = true)
    (order : withSign negative ((num : ℚ) / den) ≤ withSign negative' ((num' : ℚ) / den')) :
    (nearest negative num den).toRat ≤ (nearest negative' num' den').toRat := by
  obtain ⟨m, e, rounds, found⟩ := nearest_eq negative num h
  obtain ⟨n, f, rounds', found'⟩ := nearest_eq negative' num' h'
  rw [found] at stays ⊢
  rw [found'] at stays' ⊢
  rw [toRat_ofRounded rounds.mantissa_le stays, toRat_ofRounded rounds'.mantissa_le stays']
  have first : (0 : ℚ) ≤ m * 2 ^ e := by positivity
  have second : (0 : ℚ) ≤ n * 2 ^ f := by positivity
  cases negative <;> cases negative' <;> simp only [withSign, if_true, if_false,
    Bool.false_eq_true] at order ⊢
  · exact rounds.mono rounds' order
  · -- A number that is not negative is at most one that is not positive, so both are zero.
    have upper := rounds.mono roundsAt_zero (by linarith [rounds'.nonneg])
    have upper' := rounds'.mono roundsAt_zero (by linarith [rounds.nonneg])
    rw [Nat.cast_zero, zero_mul] at upper upper'
    linarith
  · linarith
  · exact neg_le_neg (rounds'.mono rounds (neg_le_neg_iff.mp order))

/-! ## Numbers out of range

The bounds are not sharp. They leave room between what is drawn and what overflows, and beyond what
the exponents of decimals decide.
-/

section Range

variable {negative : Bool} {num den : ℕ}

/-- Only great numbers overflow. -/
theorem isFinite_nearest (h : 0 < den) (small : (num : ℚ) / den < 2 ^ (1000 : ℤ)) :
    (nearest negative num den).isFinite = true := by
  obtain ⟨m, e, rounds, found⟩ := nearest_eq negative num h
  have inside : e < greatestExponent := by
    rcases rounds.fits.above with rfl | above
    · decide
    · have powers := (zpow_lt_zpow_iff_right₀ one_lt_two).mp (above.trans_lt small)
      rw [greatestExponent]
      omega
  rw [found, ofRounded]
  split_ifs with fits
  · rw [ofRounded.ofScaled, if_pos inside.le]
    rfl
  · rw [ofRounded.ofScaled, if_pos (by omega)]
    rfl

/-- Numbers beyond all doubles are infinite. -/
theorem nearest_eq_infinity (h : 0 < den) (great : (2 : ℚ) ^ (1100 : ℤ) ≤ (num : ℚ) / den) :
    nearest negative num den = infinity negative := by
  obtain ⟨m, e, rounds, found⟩ := nearest_eq negative num h
  have powers := (zpow_lt_zpow_iff_right₀ one_lt_two).mp (great.trans_lt rounds.fits.below)
  have outside : greatestExponent < e := by
    rw [greatestExponent]
    omega
  rw [found, ofRounded]
  split_ifs with fits
  · rw [ofRounded.ofScaled, if_neg outside.not_ge]
  · rw [ofRounded.ofScaled, if_neg (by omega)]

/-- Numbers below half of the smallest double are zero. -/
theorem nearest_eq_zero (h : 0 < den) (small : (num : ℚ) / den < 2 ^ (-1080 : ℤ)) :
    nearest negative num den = zero negative := by
  obtain ⟨m, e, rounds, found⟩ := nearest_eq negative num h
  have least : e = leastExponent := by
    refine rounds.fits.above.resolve_right fun above => ?_
    have powers := (zpow_lt_zpow_iff_right₀ one_lt_two).mp (above.trans_lt small)
    have least := rounds.fits.least
    rw [leastExponent] at least
    omega
  have below : (num : ℚ) / den * 2 ^ (-e) < 2 ^ (-6 : ℤ) := by
    have split : (2 : ℚ) ^ (-6 : ℤ) = 2 ^ (-1080 : ℤ) * 2 ^ (-e) := by
      rw [← zpow_add₀ two_ne_zero, least]
      rfl
    rw [split]
    exact mul_lt_mul_of_pos_right small (by positivity)
  have none : m = 0 := by
    have scaled : 0 ≤ (num : ℚ) / den * 2 ^ (-e) := by positivity
    refine Int.natCast_eq_zero.mp (rounds.rounds.unique (.of_abs_lt ?_))
    rw [Int.cast_zero, sub_zero, abs_of_nonneg scaled]
    exact below.trans (by norm_num)
  rw [found, none, least]
  rfl

end Range

/-! ## Values of canonical doubles -/

theorem withSign_eq_zero {negative : Bool} {q : ℚ} : withSign negative q = 0 ↔ q = 0 := by
  cases negative
  · rfl
  · exact neg_eq_zero

theorem toRat_finite_eq_zero {negative : Bool} {m : ℕ} {e : ℤ} :
    (finite negative m e).toRat = 0 ↔ m = 0 := by
  have power : (2 : ℚ) ^ e ≠ 0 := by positivity
  rw [toRat, withSign_eq_zero, mul_eq_zero, Nat.cast_eq_zero, or_iff_left power]

theorem toRat_zero (negative : Bool) : (zero negative).toRat = 0 :=
  toRat_finite_eq_zero.mpr rfl

theorem toRat_finite_nonneg (m : ℕ) (e : ℤ) : 0 ≤ (finite false m e).toRat := by
  change (0 : ℚ) ≤ m * 2 ^ e
  positivity

theorem toRat_finite_nonpos (m : ℕ) (e : ℤ) : (finite true m e).toRat ≤ 0 :=
  neg_nonpos.mpr (toRat_finite_nonneg m e)

/-- Only the two zeros have the same value. -/
theorem IsDouble.eq_of_toRat_eq {x y : Binary64} (first : x.IsDouble) (second : y.IsDouble)
    (nonzero : x.toRat ≠ 0) (same : x.toRat = y.toRat) : x = y := by
  obtain ⟨negative, m, e, rfl, canonical⟩ := first.exists_eq_finite
  obtain ⟨negative', n, f, rfl, canonical'⟩ := second.exists_eq_finite
  have positive : (0 : ℚ) < m * 2 ^ e := by
    have : 0 < m := Nat.pos_of_ne_zero fun zero => nonzero (toRat_finite_eq_zero.mpr zero)
    positivity
  have nonneg : (0 : ℚ) ≤ n * 2 ^ f := by positivity
  obtain ⟨rfl, magnitude⟩ : negative = negative' ∧ (m : ℚ) * 2 ^ e = n * 2 ^ f := by
    cases negative <;> cases negative' <;> simp only [toRat, withSign, if_true, if_false,
      Bool.false_eq_true, neg_inj] at same
    · exact ⟨rfl, same⟩
    · linarith
    · linarith
    · exact ⟨rfl, same⟩
  have found := (roundsAt_of_canonical canonical).unique
    (magnitude ▸ roundsAt_of_canonical canonical')
  rw [found.1, found.2]

end Binary64

end SceneLayout
