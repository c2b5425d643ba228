import Mathlib
import SceneLayout.Number.Double

/-!
# How doubles compare

The comparisons of doubles are told by their unpacked forms. Every double but a NaN has a
place, given by its kind and sign, then its exponent, then its mantissa; one double is
below another exactly if both have places and the first place is the lower one. Only the
two zeros share a place, and no place is above that of infinity.

Main statements: `lt_iff_place`, `le_iff_place`, `eq_of_place_eq`.
-/

namespace SceneLayout

open Scalar

theorem unpack_zero : (nat 0 : Float).toModel.unpack = .zero .positive := rfl

theorem unpack_infinity :
    (Float.ofBits 0x7FF0000000000000).toModel.unpack = .infinity .positive := rfl

theorem lt_eq_compare (a b : Float) :
    lt a b = (a.toModel.unpack.compare b.toModel.unpack == some .lt) := by
  rw [Bool.eq_iff_iff]
  change decide (Float.lt a b = true) = true ↔ _
  rw [decide_eq_true_iff, Float.lt, decide_eq_true_iff]
  rfl

theorem le_eq_compare (a b : Float) :
    le a b = (a.toModel.unpack.compare b.toModel.unpack).any Ordering.isLE := by
  rw [Bool.eq_iff_iff]
  change decide (Float.le a b = true) = true ↔ _
  rw [decide_eq_true_iff, Float.le, decide_eq_true_iff]
  rfl

/-- Doubles with the same unpacked form are the same. -/
theorem unpack_injective {a b : Float} (h : a.toModel.unpack = b.toModel.unpack) : a = b := by
  have bits : a.toModel.toBits.toBitVec = b.toModel.toBits.toBitVec :=
    (Float.Model.UnpackedFloat.unpack_inj_of_valid a.toModel.valid b.toModel.valid).mp h
  exact Float.toBits_inj.mp (UInt64.toBitVec_inj.mp bits)

/-- The place of an unpacked double: its kind, then exponent and mantissa with its sign. -/
def place : Float.Model.UnpackedFloat → Option (ℤ ×ₗ ℤ ×ₗ ℤ)
  | .notANumber => none
  | .infinity .positive => some (toLex (2, toLex (0, 0)))
  | .finite .positive mantissa exponent _ => some (toLex (1, toLex (exponent, mantissa)))
  | .zero _ => some (toLex (0, toLex (0, 0)))
  | .finite .negative mantissa exponent _ => some (toLex (-1, toLex (-exponent, -mantissa)))
  | .infinity .negative => some (toLex (-2, toLex (0, 0)))

theorem then_eq_lt_iff {e f : ℤ} {m n : ℕ} :
    (compare e f).then (compare m n) = .lt ↔ e < f ∨ e = f ∧ m < n := by
  rw [Ordering.then_eq_lt, compare_lt_iff_lt, compare_eq_iff_eq, compare_lt_iff_lt]

theorem then_eq_gt_iff {e f : ℤ} {m n : ℕ} :
    (compare e f).then (compare m n) = .gt ↔ f < e ∨ e = f ∧ n < m := by
  rw [Ordering.then_eq_gt, compare_gt_iff_gt, compare_eq_iff_eq, compare_gt_iff_gt]

theorem then_isLE_iff {e f : ℤ} {m n : ℕ} :
    ((compare e f).then (compare m n)).isLE = true ↔ e < f ∨ e = f ∧ m ≤ n := by
  rw [Ordering.isLE_iff_ne_gt, then_eq_gt_iff]
  omega

theorem then_isGE_iff {e f : ℤ} {m n : ℕ} :
    ((compare e f).then (compare m n)).isGE = true ↔ f < e ∨ e = f ∧ n ≤ m := by
  rw [Ordering.isGE_iff_ne_lt, then_eq_lt_iff]
  omega

theorem compare_sign_self (sign : Float.Model.UnpackedFloat.Sign) : compare sign sign = .eq := by
  cases sign <;> rfl

/-- Unpacked doubles compare as their places do. -/
theorem compare_eq_lt_iff (a b : Float.Model.UnpackedFloat) :
    a.compare b = some .lt ↔ ∃ p ∈ place a, ∃ q ∈ place b, p < q := by
  have signs : compare Float.Model.UnpackedFloat.Sign.negative .positive = .lt := rfl
  -- Two kinds differ in the first coordinate; exponent and mantissa decide inside a kind.
  rcases a with ⟨_ | _⟩ | _ | _ | ⟨_ | _, m, e, _⟩ <;>
    rcases b with ⟨_ | _⟩ | _ | _ | ⟨_ | _, n, f, _⟩ <;>
    simp [place, Float.Model.UnpackedFloat.compare, Prod.Lex.toLex_lt_toLex, then_eq_lt_iff,
      then_eq_gt_iff, Ordering.swap_eq_lt, signs]

/-- A double is below another one exactly if both have places and its place is the lower one. -/
theorem lt_iff_place {a b : Float} :
    lt a b = true ↔ ∃ p ∈ place a.toModel.unpack, ∃ q ∈ place b.toModel.unpack, p < q := by
  rw [lt_eq_compare, beq_iff_eq, compare_eq_lt_iff]

/-- An unpacked double is at most another one as their places are. -/
theorem isLE_compare_iff (a b : Float.Model.UnpackedFloat) :
    (a.compare b).any Ordering.isLE = true ↔ ∃ p ∈ place a, ∃ q ∈ place b, p ≤ q := by
  have below : compare Float.Model.UnpackedFloat.Sign.negative .positive = .lt := rfl
  have above : compare Float.Model.UnpackedFloat.Sign.positive .negative = .gt := rfl
  rcases a with ⟨_ | _⟩ | _ | _ | ⟨_ | _, m, e, _⟩ <;>
    rcases b with ⟨_ | _⟩ | _ | _ | ⟨_ | _, n, f, _⟩ <;>
    simp [place, Float.Model.UnpackedFloat.compare, Prod.Lex.toLex_le_toLex, below, above,
      compare_sign_self, Ordering.isLE_swap, then_isLE_iff, then_isGE_iff]

theorem le_iff_place {a b : Float} :
    le a b = true ↔ ∃ p ∈ place a.toModel.unpack, ∃ q ∈ place b.toModel.unpack, p ≤ q := by
  rw [le_eq_compare, isLE_compare_iff]

/-- A double is the same as itself exactly if it has a place. -/
theorem same_self_iff_place {a : Float} :
    same a a = true ↔ ∃ p, p ∈ place a.toModel.unpack := by
  rw [same, Bool.and_self, le_iff_place]
  constructor
  · rintro ⟨p, atA, _⟩
    exact ⟨p, atA⟩
  · rintro ⟨p, atA⟩
    exact ⟨p, atA, p, atA, le_rfl⟩

/-- Only a NaN is not the same as itself. -/
theorem same_self_eq_not_isNaN (a : Float) : same a a = !a.isNaN := by
  rw [Bool.eq_iff_iff, same_self_iff_place, Float.isNaN, Float.Model.isNaN]
  rcases a.toModel.unpack with ⟨_ | _⟩ | _ | _ | ⟨_ | _, m, e, _⟩ <;>
    simp [place, Float.Model.UnpackedFloat.isNaN]

theorem place_le_infinity {a : Float.Model.UnpackedFloat} {p : ℤ ×ₗ ℤ ×ₗ ℤ} (h : p ∈ place a) :
    p ≤ toLex (2, toLex (0, 0)) := by
  rcases a with ⟨_ | _⟩ | _ | _ | ⟨_ | _, m, e, _⟩ <;>
    simp only [place, Option.mem_def, Option.some.injEq, reduceCtorEq] at h <;>
    subst h <;>
    simp [Prod.Lex.toLex_le_toLex]

theorem eq_of_place_eq {a b : Float.Model.UnpackedFloat} (same : place a = place b)
    (nonzero : place a ≠ some (toLex (0, toLex (0, 0)))) : a = b := by
  rcases a with ⟨_ | _⟩ | _ | _ | ⟨_ | _, m, e, _⟩ <;>
    rcases b with ⟨_ | _⟩ | _ | _ | ⟨_ | _, n, f, _⟩ <;>
    simp_all [place]

/-- Of two different doubles above zero one is below the other. -/
theorem trichotomy_float {a b : Float} (first : lt (nat 0) a = true)
    (second : lt (nat 0) b = true) : lt a b = true ∨ a = b ∨ lt b a = true := by
  rw [lt_iff_place, unpack_zero] at first second
  obtain ⟨zero, atZero, p, atA, above⟩ := first
  obtain ⟨-, -, q, atB, -⟩ := second
  rcases lt_trichotomy p q with below | rfl | beyond
  · exact .inl (lt_iff_place.mpr ⟨p, atA, q, atB, below⟩)
  · refine .inr (.inl (unpack_injective (eq_of_place_eq (atA.trans atB.symm) ?_)))
    rw [Option.mem_def.mp atA]
    cases atZero
    exact fun same => above.ne (Option.some.inj same).symm
  · exact .inr (.inr (lt_iff_place.mpr ⟨q, atB, p, atA, beyond⟩))

end SceneLayout
