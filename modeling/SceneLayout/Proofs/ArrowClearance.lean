import SceneLayout.Proofs.ArrowHeads

/-!
# How far an arrow stays from the boxes it joins

An arrow to a box below starts one gap under the first box and points one gap over the second. Its
shaft ends a head's length before the tip, so it stays between the gaps exactly if the arrow is as
long as its head or does not go down at all. The shaft of a shorter arrow ends above its start, at
most one inside the first box.

Main statement: `shaft_keeps_clear_iff`.

## Implementation notes

Along the second axis the head takes that part of its length which the way down takes of the whole
arrow. All bounds come from this part: it is between nothing and the length of the head.
-/

namespace SceneLayout

open OrderedField Scalar

open scoped TrueLength

namespace Vec

theorem y_le_length (v : Vec ℝ) : v.y ≤ v.length := by
  apply Real.le_sqrt_of_sq_le
  have square := sq_nonneg v.x
  linarith

end Vec

namespace ArrowPoints

variable {points : ArrowPoints ℝ}

/-- What the head takes of the way down. -/
noncomputable def headDrop (points : ArrowPoints ℝ) : ℝ :=
  6 * ((points.tip - points.start).y / (points.tip - points.start).length)

theorem headDrop_le (points : ArrowPoints ℝ) : points.headDrop ≤ 6 := by
  have part : (points.tip - points.start).y / (points.tip - points.start).length ≤ 1 :=
    div_le_one_of_le₀ (Vec.y_le_length _) (Vec.length_nonneg _)
  rw [headDrop]
  linarith

section Downwards

variable (down : points.start.y ≤ points.tip.y)
include down

theorem headDrop_nonneg : 0 ≤ points.headDrop := by
  have drop : 0 ≤ (points.tip - points.start).y := sub_nonneg.mpr down
  have long := Vec.length_nonneg (points.tip - points.start)
  exact mul_nonneg (by norm_num) (div_nonneg drop long)

/-- The head takes no more than the way down exactly if there is none, or the arrow is as long as
its head. -/
theorem headDrop_le_iff (long : 0 < (points.tip - points.start).length) :
    points.headDrop ≤ points.tip.y - points.start.y ↔
      points.tip.y = points.start.y ∨ 6 ≤ (points.tip - points.start).length := by
  have drop : (points.tip - points.start).y = points.tip.y - points.start.y := rfl
  rcases down.eq_or_lt with level | lower
  · rw [headDrop, drop, level, sub_self, zero_div, mul_zero]
    exact iff_of_true le_rfl (.inl rfl)
  · have positive : 0 < points.tip.y - points.start.y := sub_pos.mpr lower
    rw [headDrop, drop, mul_div_assoc', div_le_iff₀ long, mul_comm 6, mul_le_mul_iff_right₀ positive]
    exact (or_iff_right lower.ne').symm

end Downwards

namespace Joined

variable (joined : points.Joined)
include joined

/-- The shaft ends above the tip by what the head takes of the way down. -/
theorem shaftEnd_y : points.shaftEnd.y = points.tip.y - points.headDrop := by
  rcases (Vec.length_nonneg (points.tip - points.start)).eq_or_lt with short | long
  · have none := Vec.length_eq_zero_iff.mp short.symm
    have level : points.tip.y = points.start.y := sub_eq_zero.mp (congrArg Vec.y none)
    obtain ⟨ratio, onLine⟩ := joined.onLine
    rw [headDrop, ← short, div_zero, mul_zero, sub_zero, onLine, none, level]
    exact (congrArg (points.start.y + ·) (zero_mul ratio)).trans (add_zero _)
  · have head : points.tip.y - points.shaftEnd.y =
        (points.tip - points.start).y * (6 / (points.tip - points.start).length) :=
      congrArg Vec.y (joined.tip_sub_shaftEnd long)
    rw [headDrop, mul_div_left_comm, ← head, sub_sub_cancel]

/-- The shaft of an arrow that goes down ends below its start exactly if the arrow is level or as
long as its head. -/
theorem start_y_le_shaftEnd_y_iff (down : points.start.y ≤ points.tip.y) :
    points.start.y ≤ points.shaftEnd.y ↔
      points.tip.y = points.start.y ∨ 6 ≤ (points.tip - points.start).length := by
  rcases (Vec.length_nonneg (points.tip - points.start)).eq_or_lt with short | long
  · have none := Vec.length_eq_zero_iff.mp short.symm
    have level : points.tip.y = points.start.y := sub_eq_zero.mp (congrArg Vec.y none)
    rw [joined.shaftEnd_y, headDrop, ← short, div_zero, mul_zero, sub_zero]
    exact iff_of_true down (.inl level)
  · rw [joined.shaftEnd_y, ← headDrop_le_iff down long, le_sub_comm]

end Joined

end ArrowPoints

namespace ArrowPoints

theorem start_y_between (source target : Box ℝ) :
    (between source target ⟨0, 0⟩).start.y = source.bottom + 5 := by
  simp only [between, clearance, nat_eq, add_zero, Nat.cast_ofNat]

theorem tip_y_between (source target : Box ℝ) :
    (between source target ⟨0, 0⟩).tip.y = target.y - 5 := by
  simp only [between, clearance, nat_eq, add_zero, Nat.cast_ofNat]

end ArrowPoints

/-- Where the second box leaves room for both gaps below the first, the arrow starts and points
between the gaps. Its shaft ends above the tip and at most one inside the first box, and it ends
between the gaps exactly if the gaps meet or the arrow is as long as its head. -/
theorem shaft_keeps_clear_iff (source target : Box ℝ) (room : source.bottom + 10 ≤ target.y) :
    let points := ArrowPoints.between source target ⟨0, 0⟩
    let clear := Set.Icc (source.bottom + 5) (target.y - 5)
    points.start.y ∈ clear ∧ points.tip.y ∈ clear ∧
      points.shaftEnd.y ∈ Set.Icc (source.bottom - 1) (target.y - 5) ∧
      (points.shaftEnd.y ∈ clear ↔
        target.y = source.bottom + 10 ∨ 6 ≤ (points.tip - points.start).length) := by
  intro points clear
  have joined := ArrowPoints.joined_between source target ⟨0, 0⟩
  have start : points.start.y = source.bottom + 5 := ArrowPoints.start_y_between source target
  have tip : points.tip.y = target.y - 5 := ArrowPoints.tip_y_between source target
  have down : points.start.y ≤ points.tip.y := by linarith
  have shaftEnd : points.shaftEnd.y = points.tip.y - points.headDrop := joined.shaftEnd_y
  have some := ArrowPoints.headDrop_nonneg down
  have most := points.headDrop_le
  have level : points.tip.y = points.start.y ↔ target.y = source.bottom + 10 := by
    constructor <;> intro same <;> linarith
  refine ⟨⟨by linarith, by linarith⟩, ⟨by linarith, by linarith⟩,
    ⟨by linarith, by linarith⟩, ?_⟩
  rw [← level, ← joined.start_y_le_shaftEnd_y_iff down]
  constructor
  · intro inside
    exact start.trans_le inside.1
  · intro below
    exact ⟨start.ge.trans below, by linarith⟩

/-- An arrow to a box that is hardly lower but far to the side. -/
theorem shaft_keeps_clear_sideways :
    let source : Box ℝ := ⟨0, 0, 10, 10⟩
    let target : Box ℝ := ⟨100, 22, 10, 10⟩
    source.bottom + 10 ≤ target.y ∧
      (ArrowPoints.between source target ⟨0, 0⟩).shaftEnd.y ∈ Set.Icc 15 17 := by
  intro source target
  have bottom : source.bottom = 10 := by
    simp only [source, Box.bottom]
    norm_num
  have room : source.bottom + 10 ≤ target.y := by
    rw [bottom]
    norm_num [target]
  have clear := shaft_keeps_clear_iff source target room
  have long : 6 ≤ ((ArrowPoints.between source target ⟨0, 0⟩).tip -
      (ArrowPoints.between source target ⟨0, 0⟩).start).length := by
    apply Real.le_sqrt_of_sq_le
    simp only [ArrowPoints.between, source, target, Vec.sub_x, Vec.sub_y, Box.centerX, Box.bottom,
      ArrowPoints.clearance, nat_eq]
    norm_num
  have inside := clear.2.2.2.mpr (.inr long)
  rw [bottom] at inside
  norm_num [target] at inside ⊢
  exact ⟨room, inside⟩

/-- The shaft of an arrow that is two long ends four above its start, although there is room for
both gaps. -/
theorem shortArrow_turns_back :
    let source : Box ℝ := ⟨0, 0, 10, 10⟩
    let target : Box ℝ := ⟨0, 22, 10, 10⟩
    let points := ArrowPoints.between source target ⟨0, 0⟩
    source.bottom + 10 ≤ target.y ∧ points.shaftEnd.y = 11 ∧
      points.shaftEnd.y ∉ Set.Icc (source.bottom + 5) (target.y - 5) := by
  intro source target points
  have bottom : source.bottom = 10 := by
    simp only [source, Box.bottom]
    norm_num
  have direction : points.tip - points.start = ⟨0, 2⟩ := by
    ext
    · simp [points, ArrowPoints.between, source, target, Box.centerX]
    · rw [Vec.sub_y, ArrowPoints.tip_y_between, ArrowPoints.start_y_between, bottom]
      norm_num [target]
  have length : (⟨0, 2⟩ : Vec ℝ).length = 2 := by
    rw [Vec.length_eq, zero_pow two_ne_zero, zero_add, Real.sqrt_sq zero_le_two]
  have shaftEnd : points.shaftEnd.y = 11 := by
    rw [(ArrowPoints.joined_between source target ⟨0, 0⟩).shaftEnd_y, ArrowPoints.headDrop,
      direction, length, ArrowPoints.tip_y_between]
    norm_num [target]
  refine ⟨?_, shaftEnd, ?_⟩
  · rw [bottom]
    norm_num [target]
  · rw [shaftEnd, bottom]
    norm_num

end SceneLayout
