import Mathlib.Analysis.Real.Sqrt
import Mathlib.Tactic.FieldSimp
import Mathlib.Tactic.Linarith
import Mathlib.Tactic.Positivity
import SceneLayout.Proofs.Page

/-!
# The heads of arrows

Over the reals vectors have their true lengths. There the head of an arrow is the same triangle
wherever the boxes are: it stands on a point of the line from the start to the tip, six before the
tip, and it reaches nine fifths to both sides of this line at a right angle. This also holds of an
arrow that is shorter than its head, whose shaft then ends before its start. An arrow without a
length has no direction, and all points of it are its start.

Main statement: `arrow_head_shaped`.

## Implementation notes

The two factors of the direction, one for the shaft and one for the sides, come from two separate
divisions by its length; after that everything is about an orthogonal pair of vectors.
-/

namespace SceneLayout

open OrderedField Scalar

/-! ## True lengths -/

namespace TrueLength

/-- The length of a vector of reals. -/
noncomputable scoped instance : VectorLength ℝ := ⟨fun x y => √(x ^ 2 + y ^ 2)⟩

end TrueLength

open TrueLength

namespace Vec

/-- The inner product of two vectors. -/
def dot (v w : Vec ℝ) : ℝ := v.x * w.x + v.y * w.y

/-- The product of two vectors with a sign, which tells on which side of the first the second is. -/
def cross (v w : Vec ℝ) : ℝ := v.x * w.y - v.y * w.x

variable {u v w : Vec ℝ}

theorem length_eq (v : Vec ℝ) : v.length = √(v.x ^ 2 + v.y ^ 2) := rfl

theorem length_nonneg (v : Vec ℝ) : 0 ≤ v.length := Real.sqrt_nonneg _

theorem sq_length (v : Vec ℝ) : v.length ^ 2 = v.x ^ 2 + v.y ^ 2 :=
  Real.sq_sqrt (by positivity)

theorem length_eq_zero_iff : v.length = 0 ↔ v = ⟨0, 0⟩ := by
  rw [length_eq, Real.sqrt_eq_zero (by positivity)]
  constructor
  · intro none
    obtain ⟨x, y⟩ := (add_eq_zero_iff_of_nonneg (sq_nonneg v.x) (sq_nonneg v.y)).mp none
    exact Vec.ext (pow_eq_zero_iff two_ne_zero |>.mp x) (pow_eq_zero_iff two_ne_zero |>.mp y)
  · rintro rfl
    norm_num

theorem length_scale (v : Vec ℝ) (factor : ℝ) : (v.scale factor).length = |factor| * v.length := by
  have inside : (v.x * factor) ^ 2 + (v.y * factor) ^ 2 = factor ^ 2 * (v.x ^ 2 + v.y ^ 2) := by
    ring
  rw [length_eq, length_eq, scale, inside, Real.sqrt_mul (sq_nonneg factor), Real.sqrt_sq_eq_abs]

theorem length_perp (v : Vec ℝ) : v.perp.length = v.length := by
  rw [length_eq, length_eq, perp, neg_sq, add_comm]

theorem unit_eq (long : v.length ≠ 0) : v.unit = v.scale (1 / v.length) := by
  have other : same v.length (nat 0) = false := by
    rw [Bool.eq_false_iff, ne_eq, same_iff, nat_eq, Nat.cast_zero]
    exact long
  rw [unit, other, if_neg Bool.false_ne_true, nat_eq, Nat.cast_one]

theorem unit_of_length_eq_zero (short : v.length = 0) : v.unit = ⟨0, 0⟩ := by
  have zero : same v.length (nat 0) = true := by
    rw [same_iff, nat_eq, Nat.cast_zero]
    exact short
  rw [unit, if_pos zero, nat_eq, Nat.cast_zero]

theorem length_unit (long : v.length ≠ 0) : v.unit.length = 1 := by
  rw [unit_eq long, length_scale, abs_of_nonneg (by have := v.length_nonneg; positivity),
    one_div_mul_cancel long]

theorem length_sub_pos (apart : v ≠ w) : 0 < (v - w).length := by
  refine lt_of_le_of_ne (length_nonneg _) fun none => apart ?_
  have zero := length_eq_zero_iff.mp none.symm
  exact Vec.ext (sub_eq_zero.mp (congrArg Vec.x zero)) (sub_eq_zero.mp (congrArg Vec.y zero))

theorem add_sub_self (v w : Vec ℝ) : v + w - v = w := by
  ext <;> simp

theorem sub_sub_self (v w : Vec ℝ) : v - w - v = w.scale (-1) := by
  ext <;> simp [scale]

theorem add_add_sub_self (u v w : Vec ℝ) : u + v + w - u = v + w := by
  ext <;> simp only [add_x, add_y, sub_x, sub_y] <;> ring

theorem add_sub_sub_self (u v w : Vec ℝ) : u + v - w - u = v - w := by
  ext <;> simp only [add_x, add_y, sub_x, sub_y] <;> ring

theorem add_sub_sub (v w : Vec ℝ) : v + w - (v - w) = w.scale 2 := by
  ext <;> simp only [add_x, add_y, sub_x, sub_y, scale] <;> ring

theorem sub_add (u v w : Vec ℝ) : u - (v + w) = u - v - w := by
  ext <;> simp only [add_x, add_y, sub_x, sub_y] <;> ring

theorem sub_sub (u v w : Vec ℝ) : u - (v - w) = u - v + w := by
  ext <;> simp only [add_x, add_y, sub_x, sub_y] <;> ring

/-- With a second vector at a right angle it is as far back as it is forth. -/
theorem length_sub_eq_length_add (orthogonal : dot v w = 0) : (v - w).length = (v + w).length := by
  rw [dot] at orthogonal
  rw [length_eq, length_eq]
  congr 1
  simp only [sub_x, sub_y, add_x, add_y]
  linarith

theorem dot_comm (v w : Vec ℝ) : dot v w = dot w v := by
  simp only [dot]
  ring

theorem dot_scale (v w : Vec ℝ) (factor : ℝ) : dot (v.scale factor) w = factor * dot v w := by
  simp only [dot, scale]
  ring

theorem cross_scale_add (v w : Vec ℝ) (factor : ℝ) : cross v (v.scale factor + w) = cross v w := by
  simp only [cross, scale, add_x, add_y]
  ring

theorem cross_scale_sub (v w : Vec ℝ) (factor : ℝ) : cross v (v.scale factor - w) = -cross v w := by
  simp only [cross, scale, sub_x, sub_y]
  ring

/-- The vector of a length at a right angle to another one. -/
noncomputable def side (v : Vec ℝ) (factor : ℝ) : Vec ℝ := v.unit.perp.scale factor

section Side

variable (long : 0 < v.length)
include long

theorem length_side {factor : ℝ} (positive : 0 < factor) : (v.side factor).length = factor := by
  rw [side, length_scale, length_perp, length_unit long.ne', abs_of_pos positive, mul_one]

theorem dot_side (factor : ℝ) : dot v (v.side factor) = 0 := by
  rw [side, unit_eq long.ne']
  simp only [dot, perp, scale]
  ring

theorem cross_side (factor : ℝ) : cross v (v.side factor) = factor * v.length := by
  have square := v.sq_length
  rw [side, unit_eq long.ne']
  simp only [cross, perp, scale]
  field_simp
  rw [square]
  ring

end Side

end Vec

/-! ## The points of an arrow -/

namespace ArrowPoints

/-- The head of an arrow is a triangle on the line from the start to the tip: it is six long and
reaches nine fifths to both sides at a right angle, so that its slanted sides are equal. -/
structure HeadShaped (points : ArrowPoints ℝ) : Prop where
  onLine : ∃ ratio, points.shaftEnd = points.start + (points.tip - points.start).scale ratio
  long : (points.tip - points.shaftEnd).length = 6
  leftWide : (points.left - points.shaftEnd).length = 9 / 5
  rightWide : (points.right - points.shaftEnd).length = 9 / 5
  leftSide : 0 < (points.tip - points.start).cross (points.left - points.start)
  rightSide : (points.tip - points.start).cross (points.right - points.start) < 0
  perpendicular : (points.left - points.right).dot (points.tip - points.start) = 0
  slanted : (points.tip - points.left).length = (points.tip - points.right).length

/-- The points of an arrow by its start and its tip: the shaft ends on the way between them, before
the length of the head, and the head is as wide as its length tells. -/
structure Joined (points : ArrowPoints ℝ) : Prop where
  onLine : ∃ ratio, points.shaftEnd = points.start + (points.tip - points.start).scale ratio
  shaftEnd : 0 < (points.tip - points.start).length → points.shaftEnd =
    points.start + (points.tip - points.start).scale
      (((points.tip - points.start).length - 6) / (points.tip - points.start).length)
  left : points.left = points.shaftEnd + (points.tip - points.start).side (9 / 5)
  right : points.right = points.shaftEnd - (points.tip - points.start).side (9 / 5)

theorem joined_between (source target : Box ℝ) (offset : Vec ℝ) :
    (between source target offset).Joined := by
  have half : (headWidth / nat 2 : ℝ) = 9 / 5 := by
    rw [headWidth, headLength, nat_eq, nat_eq, nat_eq, nat_eq]
    norm_num
  have zero : (nat 0 : ℝ) = 0 := by rw [nat_eq, Nat.cast_zero]
  have six : (headLength : ℝ) = 6 := by rw [headLength, nat_eq, Nat.cast_ofNat]
  constructor
  case onLine => exact ⟨_, rfl⟩
  case shaftEnd =>
    intro long
    simp only [between, zero, six] at long ⊢
    rw [if_pos (lt_iff.mpr long)]
  case left => simp only [between, half, Vec.side]
  case right => simp only [between, half, Vec.side]

namespace Joined

variable {points : ArrowPoints ℝ} (joined : points.Joined)
include joined

/-- From the end of the shaft to the tip it is the way along the arrow, cut to the length of the
head. -/
theorem tip_sub_shaftEnd (long : 0 < (points.tip - points.start).length) :
    points.tip - points.shaftEnd =
      (points.tip - points.start).scale (6 / (points.tip - points.start).length) := by
  rw [joined.shaftEnd long]
  ext <;> simp only [Vec.add_x, Vec.add_y, Vec.sub_x, Vec.sub_y, Vec.scale] <;> field_simp <;> ring

theorem headShaped (apart : points.start ≠ points.tip) : points.HeadShaped := by
  have long : 0 < (points.tip - points.start).length := Vec.length_sub_pos apart.symm
  obtain ⟨ratio, onLine⟩ := joined.onLine
  have half := Vec.length_side long (by norm_num : (0 : ℝ) < 9 / 5)
  have orthogonal := Vec.dot_side long (9 / 5)
  have across := Vec.cross_side long (9 / 5)
  constructor
  case onLine => exact joined.onLine
  case long =>
    rw [joined.tip_sub_shaftEnd long, Vec.length_scale, abs_of_pos (by positivity),
      div_mul_cancel₀ _ long.ne']
  case leftWide => rw [joined.left, Vec.add_sub_self, half]
  case rightWide =>
    rw [joined.right, Vec.sub_sub_self, Vec.length_scale, half, abs_neg, abs_one, one_mul]
  case leftSide =>
    rw [joined.left, onLine, Vec.add_add_sub_self, Vec.cross_scale_add, across]
    positivity
  case rightSide =>
    rw [joined.right, onLine, Vec.add_sub_sub_self, Vec.cross_scale_sub, across, neg_neg_iff_pos]
    positivity
  case perpendicular =>
    rw [joined.left, joined.right, Vec.add_sub_sub, Vec.dot_scale, Vec.dot_comm, orthogonal,
      mul_zero]
  case slanted =>
    rw [joined.left, joined.right, Vec.sub_add, Vec.sub_sub, joined.tip_sub_shaftEnd long]
    apply Vec.length_sub_eq_length_add
    rw [Vec.dot_scale, orthogonal, mul_zero]

theorem eq_start (same : points.start = points.tip) :
    points.shaftEnd = points.start ∧ points.left = points.start ∧ points.right = points.start := by
  obtain ⟨ratio, onLine⟩ := joined.onLine
  have none : points.tip - points.start = ⟨0, 0⟩ := by
    rw [same]
    exact Vec.ext (sub_self _) (sub_self _)
  have sideless : (⟨0, 0⟩ : Vec ℝ).side (9 / 5) = ⟨0, 0⟩ := by
    rw [Vec.side, Vec.unit_of_length_eq_zero (Vec.length_eq_zero_iff.mpr rfl)]
    ext <;> simp [Vec.perp, Vec.scale]
  have shaftEnd : points.shaftEnd = points.start := by
    rw [onLine, none]
    ext <;> simp [Vec.scale]
  refine ⟨shaftEnd, ?_, ?_⟩
  · rw [joined.left, none, sideless, shaftEnd]
    ext <;> simp
  · rw [joined.right, none, sideless, shaftEnd]
    ext <;> simp

end Joined

end ArrowPoints

/-- The head of an arrow has its shape wherever the boxes are, and without a length of the arrow all
its points are the start. -/
theorem arrow_head_shaped (source target : Box ℝ) (offset : Vec ℝ) :
    let points := ArrowPoints.between source target offset
    (points.start ≠ points.tip → points.HeadShaped) ∧
      (points.start = points.tip → points.shaftEnd = points.start ∧
        points.left = points.start ∧ points.right = points.start) :=
  have joined := ArrowPoints.joined_between source target offset
  ⟨joined.headShaped, joined.eq_start⟩

/-- An arrow between boxes that are one above the other, and one between boxes that leave no more
than the gaps. -/
theorem head_shaped_between_stacked :
    (ArrowPoints.between (⟨0, 0, 10, 10⟩ : Box ℝ) ⟨0, 40, 10, 10⟩ ⟨0, 0⟩).HeadShaped ∧
      (ArrowPoints.between (⟨0, 0, 10, 10⟩ : Box ℝ) ⟨0, 20, 10, 10⟩ ⟨0, 0⟩).left = ⟨5, 15⟩ := by
  have clear : (ArrowPoints.clearance : ℝ) = 5 := by
    rw [ArrowPoints.clearance, nat_eq, Nat.cast_ofNat]
  constructor
  · apply (arrow_head_shaped ⟨0, 0, 10, 10⟩ ⟨0, 40, 10, 10⟩ ⟨0, 0⟩).1
    intro same
    have height := congrArg Vec.y same
    simp only [ArrowPoints.between, Box.bottom, clear] at height
    norm_num at height
  · have same := ((arrow_head_shaped ⟨0, 0, 10, 10⟩ ⟨0, 20, 10, 10⟩ ⟨0, 0⟩).2 ?_).2.1
    · rw [same]
      ext <;> simp only [ArrowPoints.between, Box.bottom, Box.centerX, clear, nat_eq] <;> norm_num
    · apply Vec.ext
      · rfl
      · simp only [ArrowPoints.between, Box.bottom, clear]
        norm_num

end SceneLayout
