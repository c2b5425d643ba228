import Mathlib.Data.Nat.Cast.Field
import SceneLayout.Markup.Svg
import SceneLayout.Proofs.DecimalTexts
import SceneLayout.Proofs.MachineDoubles
import SceneLayout.Proofs.RoundedPlaces

/-!
# Drawn numbers are read back

A number is drawn in one of three forms: zero, a whole number with all its digits, or the shortest
decimal of the rounded double. In each form the text is read as a decimal whose nearest double is
the rounded one. So the text and the rounded double tell each other, apart from the sign of zero, and
what holds of rounding holds of drawing: it keeps order, and doing it again changes nothing.

Main statement: `drawnNumber_reads_back`.
-/

namespace SceneLayout

open Decimal (Shows)

namespace Binary64

/-- The double with zero taken to be positive. -/
def withoutZeroSign (x : Binary64) : Binary64 := if x.isZero then zero false else x

variable {x y : Binary64}

theorem IsDouble.isZero_iff (h : x.IsDouble) : x.isZero = true ↔ x.toRat = 0 := by
  obtain ⟨negative, m, e, rfl, -⟩ := h.exists_eq_finite
  rw [toRat_finite_eq_zero, isZero, beq_iff_eq]

theorem IsDouble.withoutZeroSign (h : x.IsDouble) : x.withoutZeroSign.IsDouble := by
  unfold Binary64.withoutZeroSign
  split_ifs
  · exact ⟨canonical_zero false, rfl⟩
  · exact h

theorem IsDouble.toRat_withoutZeroSign (h : x.IsDouble) : x.withoutZeroSign.toRat = x.toRat := by
  unfold Binary64.withoutZeroSign
  split_ifs with none
  · rw [h.isZero_iff.mp none, toRat_zero]
  · rfl

/-- Doubles differ by nothing but the sign of zero if they are equal as numbers. -/
theorem IsDouble.withoutZeroSign_eq_iff (first : x.IsDouble) (second : y.IsDouble) :
    x.withoutZeroSign = y.withoutZeroSign ↔ x.toRat = y.toRat := by
  constructor
  · intro same
    rw [← first.toRat_withoutZeroSign, same, second.toRat_withoutZeroSign]
  · intro same
    by_cases none : x.toRat = 0
    · rw [Binary64.withoutZeroSign, Binary64.withoutZeroSign, if_pos (first.isZero_iff.mpr none),
        if_pos (second.isZero_iff.mpr (same ▸ none))]
    · rw [first.eq_of_toRat_eq second none same]

/-- The text depends on nothing but the rounded double. -/
theorem drawn_congr (same : x.roundToPlaces 9 = y.roundToPlaces 9) : x.drawn = y.drawn := by
  unfold drawn
  rw [same]

/-- Zero of either sign is drawn alike. -/
theorem IsDouble.drawn_of_isZero (h : x.IsDouble) (none : (x.roundToPlaces 9).isZero = true) :
    x.drawn = "0" := by
  obtain ⟨negative, m, e, found, -⟩ := (h.roundToPlaces 9).exists_eq_finite
  rw [found, isZero, beq_iff_eq] at none
  unfold drawn
  rw [found]
  exact if_pos none

/-- The digits of a whole number have its exact value. -/
theorem magnitude_of_isWhole {negative : Bool} {m : ℕ} {e : ℤ}
    (whole : (finite negative m e).isWhole = true) :
    (Decimal.mk negative ((ratio m e).1 / (ratio m e).2) 0).magnitude = m * 2 ^ e := by
  rw [isWhole, beq_iff_eq] at whole
  have positive : ((ratio m e).2 : ℚ) ≠ 0 := Nat.cast_ne_zero.mpr (ratio_snd_pos m e).ne'
  rw [Decimal.magnitude, zpow_zero, mul_one, Nat.cast_div (Nat.dvd_of_mod_eq_zero whole) positive,
    ratio_eq]

/-- A drawn number shows a decimal whose nearest double is the rounded number. -/
theorem IsDouble.exists_shows_drawn (h : x.IsDouble) :
    ∃ d, Shows x.drawn d ∧ d.toBinary64 = (x.roundToPlaces 9).withoutZeroSign := by
  obtain ⟨negative, m, e, found, canonical⟩ := (h.roundToPlaces 9).exists_eq_finite
  by_cases none : (x.roundToPlaces 9).isZero = true
  · rw [h.drawn_of_isZero none, Binary64.withoutZeroSign, if_pos none]
    exact ⟨_, Decimal.shows_zero, rfl⟩
  rw [Binary64.withoutZeroSign, if_neg none]
  rw [found, isZero, beq_iff_eq] at none
  unfold drawn
  rw [found]
  dsimp only
  rw [if_neg none]
  split_ifs with whole
  · exact ⟨_, Decimal.shows_wholeText negative m e,
      Decimal.toBinary64_of_magnitude canonical (magnitude_of_isWhole whole)⟩
  · obtain ⟨d, chosen, back⟩ := exists_shortest canonical none
    obtain ⟨read, text, same⟩ := Decimal.shows_written d
    refine ⟨read, ?_, same.toBinary64.trans back⟩
    unfold written writtenAs
    rw [chosen]
    exact text

theorem IsDouble.toBinary64_of_shows (h : x.IsDouble) {d : Decimal} (shown : Shows x.drawn d) :
    d.toBinary64 = (x.roundToPlaces 9).withoutZeroSign := by
  obtain ⟨read, found, back⟩ := h.exists_shows_drawn
  rwa [← Option.some.inj (shown.read.symm.trans found.read)] at back

/-- Drawing what was read gives the same text. -/
theorem IsDouble.drawn_withoutZeroSign (h : x.IsDouble) :
    (x.roundToPlaces 9).withoutZeroSign.drawn = x.drawn := by
  unfold Binary64.withoutZeroSign
  split_ifs with none
  · rw [h.drawn_of_isZero none]
    exact IsDouble.drawn_of_isZero ⟨canonical_zero false, rfl⟩ (by decide +kernel)
  · exact drawn_congr h.roundToPlaces_roundToPlaces

/-- Numbers are drawn alike if they are rounded to equal numbers. -/
theorem IsDouble.drawn_eq_iff (first : x.IsDouble) (second : y.IsDouble) :
    x.drawn = y.drawn ↔ (x.roundToPlaces 9).toRat = (y.roundToPlaces 9).toRat := by
  rw [← (first.roundToPlaces 9).withoutZeroSign_eq_iff (second.roundToPlaces 9)]
  constructor
  · intro same
    obtain ⟨d, shown, back⟩ := first.exists_shows_drawn
    rw [← back, second.toBinary64_of_shows (same ▸ shown)]
  · intro same
    rw [← first.drawn_withoutZeroSign, same, second.drawn_withoutZeroSign]

/-- A number is drawn as zero exactly if it is rounded to zero. -/
theorem IsDouble.drawn_eq_zero_iff (h : x.IsDouble) :
    x.drawn = "0" ↔ (x.roundToPlaces 9).toRat = 0 := by
  rw [← (h.roundToPlaces 9).isZero_iff]
  constructor
  · intro text
    have back := h.toBinary64_of_shows (text.symm ▸ Decimal.shows_zero)
    rw [(h.roundToPlaces 9).isZero_iff, ← (h.roundToPlaces 9).toRat_withoutZeroSign, ← back]
    exact toRat_zero false
  · exact h.drawn_of_isZero

/-- A number that is at most another one is drawn as a number that is at most the other one's. -/
theorem IsDouble.drawn_le (first : x.IsDouble) (second : y.IsDouble) (order : x.toRat ≤ y.toRat)
    {c d : Decimal} (shown : Shows x.drawn c) (shown' : Shows y.drawn d) :
    c.toRat ≤ d.toRat ∧ c.toBinary64.toRat ≤ d.toBinary64.toRat := by
  have back := first.toBinary64_of_shows shown
  have back' := second.toBinary64_of_shows shown'
  have value := (first.roundToPlaces 9).toRat_withoutZeroSign
  have value' := (second.roundToPlaces 9).toRat_withoutZeroSign
  have stays := (first.roundToPlaces 9).withoutZeroSign.isFinite
  have stays' := (second.roundToPlaces 9).withoutZeroSign.isFinite
  rw [← back] at value stays
  rw [← back'] at value' stays'
  have rounded := first.toRat_roundToPlaces_le second order 9
  refine ⟨?_, by rwa [value, value']⟩
  rcases rounded.eq_or_lt with same | below
  · have text := (first.drawn_eq_iff second).mpr same
    exact (congrArg Decimal.toRat (Option.some.inj ((text ▸ shown.read).symm.trans shown'.read))).le
  · -- Reading keeps order too, so decimals in the other order would be read in the other order.
    by_contra above
    have reversed := Decimal.toRat_toBinary64_le stays' stays (not_le.mp above).le
    rw [value, value'] at reversed
    exact absurd reversed below.not_ge

end Binary64

open Binary64 (ofFloat)

/-- The number rounded to nine places. -/
def roundedNumber (v : Float) : Binary64 := (ofFloat v).roundToPlaces 9

/-- What a text keeps of the number that is drawn by it, where the text is read as the decimal. -/
structure KeepsRounded (v : Float) (d : Decimal) : Prop where
  /-- The exact value is rounded to a multiple of the ninth place and that to the nearest double. -/
  rounded : ∃ n : ℤ, RoundsTo ((ofFloat v).toRat * 10 ^ 9) n ∧
    (roundedNumber v).IsNearest (n / 10 ^ 9)
  /-- The double of the decimal is nearest to it. -/
  nearest : d.toBinary64.IsNearest d.toRat
  /-- That double is the rounded one, with zero taken to be positive. -/
  back : d.toBinary64 = (roundedNumber v).withoutZeroSign
  /-- The text is typed for that double. -/
  typed : Numeral.double? (drawnNumber v) = some d.toBinary64
  /-- What is rounded to zero of either sign has a text of its own. -/
  zero : drawnNumber v = "0" ↔ (roundedNumber v).toRat = 0
  /-- The double is a machine double that has the same text. -/
  again : ofFloat d.toBinary64.toFloat = d.toBinary64 ∧
    drawnNumber d.toBinary64.toFloat = drawnNumber v
  /-- Two numbers have the same text if they are rounded to equal numbers. -/
  alike : ∀ w : Float, w.isFinite = true →
    (drawnNumber v = drawnNumber w ↔ (roundedNumber v).toRat = (roundedNumber w).toRat)
  /-- A number that is not smaller has a text that shows a number that is not smaller. -/
  order : ∀ w : Float, w.isFinite = true → v ≤ w →
    ∃ e, Decimal.ofText? (drawnNumber w) = some e ∧ d.toRat ≤ e.toRat ∧
      d.toBinary64.toRat ≤ e.toBinary64.toRat

theorem keepsRounded_of_shows {v : Float} (h : v.isFinite = true) {d : Decimal}
    (shown : Shows (drawnNumber v) d) : KeepsRounded v d := by
  have double := Binary64.isDouble_ofFloat h
  have back : d.toBinary64 = (roundedNumber v).withoutZeroSign := double.toBinary64_of_shows shown
  have read : d.toBinary64.IsDouble := back ▸ (double.roundToPlaces 9).withoutZeroSign
  constructor
  case rounded => exact double.isNearest_roundToPlaces 9
  case nearest => exact Decimal.isNearest_toBinary64 read.isFinite
  case back => exact back
  case typed => exact shown.double?_eq
  case zero => exact double.drawn_eq_zero_iff
  case again =>
    refine ⟨read.ofFloat_toFloat, ?_⟩
    rw [drawnNumber, read.ofFloat_toFloat, back]
    exact double.drawn_withoutZeroSign
  case alike =>
    intro w finite
    exact double.drawn_eq_iff (Binary64.isDouble_ofFloat finite)
  case order =>
    intro w finite order
    have other := Binary64.isDouble_ofFloat finite
    obtain ⟨e, shown', -⟩ := other.exists_shows_drawn
    have values := Binary64.toRat_le_of_le h finite order
    exact ⟨e, shown'.read, double.drawn_le other values shown shown'⟩

/-- A finite number is drawn as a text that is read as a decimal, and the double nearest to the
decimal is the number rounded to nine places. -/
theorem drawnNumber_reads_back (v : Float) (h : v.isFinite = true) :
    ∃ d, Decimal.ofText? (drawnNumber v) = some d ∧ KeepsRounded v d := by
  obtain ⟨d, shown, -⟩ := (Binary64.isDouble_ofFloat h).exists_shows_drawn
  exact ⟨d, shown.read, keepsRounded_of_shows h shown⟩

/-- The sum of a tenth and two tenths is the double after the one nearest to three tenths. -/
theorem threeTenths_read_back :
    (Float.ofBits 0x3FD3333333333334).isFinite = true ∧
      drawnNumber (Float.ofBits 0x3FD3333333333334) = "0.3" ∧
      KeepsRounded (Float.ofBits 0x3FD3333333333334) ⟨false, 3, -1⟩ := by
  have finite : (Float.ofBits 0x3FD3333333333334).isFinite = true := by decide +kernel
  have text : drawnNumber (Float.ofBits 0x3FD3333333333334) = "0.3" := by decide +kernel
  obtain ⟨d, read, kept⟩ := drawnNumber_reads_back (Float.ofBits 0x3FD3333333333334) finite
  rw [text] at read
  have shown : Decimal.ofText? "0.3" = some ⟨false, 3, -1⟩ := rfl
  rw [← Option.some.inj (read.symm.trans shown)]
  exact ⟨finite, text, kept⟩

example : drawnNumber (Float.ofBits 0x8000000000000000) = "0" := by decide +kernel

end SceneLayout
