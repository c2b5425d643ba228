import SceneLayout.Proofs.Placement

/-!
# Extents at rest

An operator sets extents only from extents that it reads and does not set. So extents that
are not negative stay so under full damping, and under any other damping a pass loses
nothing of the extents before it: numbers that come to rest have the extents that
relaxation began with.

Main statement: `extentsNonneg_of_rests`.
-/

namespace SceneLayout

open Scalar

/-- No extent is negative. -/
def ExtentsNonneg (numbers : Nat → ℚ) : Prop := ∀ slot, IsExtent slot → 0 ≤ numbers slot

theorem isExtent_base {base : Nat} (multiple : base % 4 = 0) (axis : Axis) :
    IsExtent (base + axis.extent) := by
  cases axis <;> simp only [IsExtent, slotsPerEntity, Axis.extent] <;> omega

namespace Operator

/-- The gap that the operator keeps, between children or around a child, is not negative. -/
def GapNonneg : Operator ℚ → Prop
  | stack _ _ _ spacing _ => 0 ≤ spacing
  | background _ _ padding => 0 ≤ padding
  | _ => True

/-- Only boxes and containers have their extents set. -/
theorem extent_of_mem_slots {α : Type*} {operator : Operator α} (placed : operator.OnEntities)
    {slot : Nat} (own : slot ∈ operator.slots) (extent : IsExtent slot) :
    (∃ child box padding, operator = background child box padding ∧
        ∃ axis : Axis, slot = box + axis.extent) ∨
      ∃ axis children container spacing alignment,
        operator = stack axis children container spacing alignment ∧
          (slot = container + axis.extent ∨ slot = container + axis.cross.extent) := by
  have noPosition : ∀ {spans : List Span}, (∀ span ∈ spans, span.OnEntity) →
      slot ∉ spans.map Span.position := by
    intro spans onEntity listed
    obtain ⟨span, member, rfl⟩ := List.mem_map.mp listed
    have position := (onEntity span member).position_mod
    simp only [IsExtent, slotsPerEntity] at extent
    omega
  cases operator with
  | alignNear positions =>
      obtain ⟨axis, rank, rfl⟩ := placed slot own
      have base := baseOf_mod rank
      simp only [IsExtent, slotsPerEntity] at extent
      cases axis <;> simp only [Axis.position] at extent <;> omega
  | alignFar spans => exact absurd own (noPosition placed)
  | alignCenter spans => exact absurd own (noPosition placed)
  | centerOn anchor spans =>
      exact absurd own (noPosition fun span member => placed span (List.mem_cons_of_mem _ member))
  | distribute spans spacing => exact absurd own (noPosition placed)
  | background child box padding =>
      refine .inl ⟨child, box, padding, rfl, ?_⟩
      have multiple := bases_mod placed box (by simp)
      obtain ⟨offset, small, rfl⟩ := mem_four.mp own
      have two : offset = 2 ∨ offset = 3 := by
        simp only [IsExtent, slotsPerEntity] at extent
        omega
      rcases two with rfl | rfl
      · exact ⟨.x, rfl⟩
      · exact ⟨.y, rfl⟩
  | stack axis children container spacing alignment =>
      refine .inr ⟨axis, children, container, spacing, alignment, rfl, ?_⟩
      refine (mem_slots_stack.mp own).resolve_left ?_
      rintro ⟨base, member, atBase⟩
      have multiple := bases_mod placed base (List.mem_cons_of_mem _ member)
      simp only [IsExtent, slotsPerEntity] at extent
      cases axis <;> simp only [Axis.position, Axis.cross] at atBase <;> omega

/-! ## Full damping -/

section Nonneg

variable {numbers : Nat → ℚ} (nonneg : ExtentsNonneg numbers)
include nonneg

theorem le_stackEnd {axis : Axis} {spacing : ℚ} (apart : 0 ≤ spacing) {children : List Nat}
    (multiple : ∀ base ∈ children, base % 4 = 0) (place : ℚ) :
    place ≤ stackEnd numbers axis spacing place children := by
  induction children generalizing place with
  | nil => exact le_rfl
  | cons base rest ih =>
      have extent := nonneg _ (isExtent_base (multiple base List.mem_cons_self) axis)
      rw [stackEnd, List.foldl_cons]
      refine le_trans ?_ (ih (fun base member => multiple base (List.mem_cons_of_mem _ member)) _)
      linarith

/-- The end of a stack with children is not before the spacing behind the first of them. -/
theorem spacing_le_stackEnd {axis : Axis} {spacing : ℚ} (apart : 0 ≤ spacing) {children : List Nat}
    (multiple : ∀ base ∈ children, base % 4 = 0) (some : children ≠ []) :
    spacing ≤ stackEnd numbers axis spacing 0 children := by
  cases children with
  | nil => exact absurd rfl some
  | cons base rest =>
      have extent := nonneg _ (isExtent_base (multiple base List.mem_cons_self) axis)
      rw [stackEnd, List.foldl_cons]
      refine le_trans ?_ (le_stackEnd nonneg apart
        (fun base member => multiple base (List.mem_cons_of_mem _ member)) _)
      linarith

/-- Extents that are not negative are not made so. -/
theorem extentsNonneg_target {operator : Operator ℚ} (placed : operator.OnEntities)
    (distinct : operator.DistinctEntries) (gap : operator.GapNonneg) :
    ExtentsNonneg (operator.target numbers) := by
  intro slot extent
  by_cases own : slot ∈ operator.slots
  swap
  · rw [target_of_not_mem own]
    exact nonneg slot extent
  rcases extent_of_mem_slots placed own extent with
    ⟨child, box, padding, rfl, axis, rfl⟩ |
      ⟨axis, children, container, spacing, alignment, rfl, atContainer⟩
  · have childExtent := nonneg _ (isExtent_base (bases_mod placed child (by simp)) axis)
    have proposal : (box + axis.extent, numbers (child + axis.extent) + padding * nat 2) ∈
        (background child box padding).proposed numbers := by
      cases axis <;> simp [proposed, Axis.extent]
    rw [target_of_mem_proposed placed distinct proposal, nat_eq_cast]
    have padded : 0 ≤ padding * ((2 : Nat) : ℚ) := mul_nonneg gap (Nat.cast_nonneg 2)
    exact add_nonneg childExtent padded
  · have multiple : ∀ base ∈ children, base % 4 = 0 := fun base member =>
      bases_mod placed base (List.mem_cons_of_mem _ member)
    rcases atContainer with rfl | rfl
    · have proposal : (container + axis.extent, if children.isEmpty then nat 0
          else stackEnd numbers axis spacing (nat 0) children - spacing) ∈
          (stack axis children container spacing alignment).proposed numbers := by
        simp [proposed]
      rw [target_of_mem_proposed placed distinct proposal]
      by_cases none : children.isEmpty
      · rw [if_pos none, nat_eq_cast, Nat.cast_zero]
      · rw [if_neg none, nat_eq_cast, Nat.cast_zero, sub_nonneg]
        apply spacing_le_stackEnd nonneg gap multiple
        rintro rfl
        exact none rfl
    · have proposal : (container + axis.cross.extent, stackWidest numbers axis (nat 0) children) ∈
          (stack axis children container spacing alignment).proposed numbers := by
        simp [proposed]
      rw [target_of_mem_proposed placed distinct proposal, stackWidest]
      have start : (nat 0 : ℚ) ≤ greatest (nat 0)
          (children.map fun base => numbers (base + axis.cross.extent)) :=
        le_greatest List.mem_cons_self
      rwa [nat_eq_cast, Nat.cast_zero] at start

end Nonneg

/-! ## Other damping -/

/-- Numbers have the extents of those that the operator moves to extents at rest. -/
theorem extents_eq_of_moved_eq {operator : Operator ℚ} (placed : operator.OnEntities)
    (distinct : operator.DistinctEntries) {damping : ℚ} (partly : damping ≠ 1)
    {numbers rest : Nat → ℚ} (rests : operator.target rest = rest)
    (reached : ∀ slot, IsExtent slot → operator.moved damping numbers slot = rest slot) :
    ∀ slot, IsExtent slot → numbers slot = rest slot := by
  have foreign : ∀ slot, IsExtent slot → slot ∉ operator.slots → numbers slot = rest slot := by
    intro slot extent absent
    rw [← reached slot extent, moved_of_not_mem absent]
  intro slot extent
  by_cases own : slot ∈ operator.slots
  · have target : operator.target numbers slot = rest slot := by
      rw [target_extent_congr placed distinct (fun slot _ => foreign slot) own extent, rests]
    have moved := reached slot extent
    rw [moved_of_mem own, target] at moved
    have part : (1 - damping) * (numbers slot - rest slot) = 0 := by linarith
    rcases mul_eq_zero.mp part with full | same
    · exact absurd (sub_eq_zero.mp full).symm partly
    · exact sub_eq_zero.mp same
  · exact foreign slot extent own

end Operator

namespace Relaxation

variable {operators : List (Operator ℚ)} (placed : ∀ operator ∈ operators, operator.OnEntities)
  (distinct : ∀ operator ∈ operators, operator.DistinctEntries)

include placed distinct

theorem extentsNonneg_pass (gaps : ∀ operator ∈ operators, operator.GapNonneg)
    {numbers : Nat → ℚ} (nonneg : ExtentsNonneg numbers) :
    ExtentsNonneg (pass 1 operators numbers) := by
  induction operators generalizing numbers with
  | nil => exact nonneg
  | cons operator rest ih =>
      have next := Operator.extentsNonneg_target nonneg (placed _ List.mem_cons_self)
        (distinct _ List.mem_cons_self) (gaps _ List.mem_cons_self)
      rw [← Operator.moved_one] at next
      exact ih (fun other later => placed other (List.mem_cons_of_mem _ later))
        (fun other later => distinct other (List.mem_cons_of_mem _ later))
        (fun other later => gaps other (List.mem_cons_of_mem _ later)) next

theorem extents_eq_of_pass_eq {damping : ℚ} (partly : damping ≠ 1) {numbers rest : Nat → ℚ}
    (rests : ∀ operator ∈ operators, operator.target rest = rest)
    (reached : ∀ slot, IsExtent slot → pass damping operators numbers slot = rest slot) :
    ∀ slot, IsExtent slot → numbers slot = rest slot := by
  induction operators generalizing numbers with
  | nil => exact reached
  | cons operator others ih =>
      have after := ih (fun other later => placed other (List.mem_cons_of_mem _ later))
        (fun other later => distinct other (List.mem_cons_of_mem _ later))
        (fun other later => rests other (List.mem_cons_of_mem _ later)) reached
      exact Operator.extents_eq_of_moved_eq (placed _ List.mem_cons_self)
        (distinct _ List.mem_cons_self) partly (rests _ List.mem_cons_self) after

/-- Relaxation that comes to rest under a damping that is not full has not changed an extent. -/
theorem extents_eq_of_rests {damping : ℚ} (partly : damping ≠ 1) {numbers : Nat → ℚ} {count : Nat}
    (rests : ∀ operator ∈ operators, operator.target (afterPasses damping operators numbers count) =
      afterPasses damping operators numbers count) :
    ∀ slot, IsExtent slot → numbers slot = afterPasses damping operators numbers count slot := by
  induction count generalizing numbers with
  | zero => exact fun _ _ => rfl
  | succ count ih =>
      exact extents_eq_of_pass_eq placed distinct partly rests (ih rests)

/-- At rest no extent is negative, if none was at the start and no gap is. -/
theorem extentsNonneg_of_rests (gaps : ∀ operator ∈ operators, operator.GapNonneg)
    {damping : ℚ} {numbers : Nat → ℚ} {count : Nat} (nonneg : ExtentsNonneg numbers)
    (rests : ∀ operator ∈ operators, operator.target (afterPasses damping operators numbers count) =
      afterPasses damping operators numbers count) :
    ExtentsNonneg (afterPasses damping operators numbers count) := by
  by_cases full : damping = 1
  · subst full
    clear rests
    induction count with
    | zero => exact nonneg
    | succ count ih =>
        rw [afterPasses_succ]
        exact extentsNonneg_pass placed distinct gaps ih
  · intro slot extent
    rw [← extents_eq_of_rests placed distinct full rests slot extent]
    exact nonneg slot extent

end Relaxation

end SceneLayout
