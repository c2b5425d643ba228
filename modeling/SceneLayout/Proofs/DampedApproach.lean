import Mathlib.Algebra.BigOperators.Group.List.Basic
import SceneLayout.Proofs.Independence
import SceneLayout.Proofs.Influence
import SceneLayout.Proofs.Placement

/-!
# Damped moves of operators that keep out of each other's way

Alignments, rows with a spacing and frames have steady aims: a partial move of their slots
towards the places that they propose leaves these places where they are. An alignment keeps
the least position, the greatest far edge or the mean of the centers, centering on an anchor
keeps the anchor, a row its last entry, and a frame its child. So each damped pass leaves the
same part of the way, and the distance that is left after some passes is a power of it. Other
operators do not disturb this as long as they write nothing that the operator reads or writes.

Main statement: `relax_approaches_proposals`.

## Implementation notes

Even spreads do not belong here, since their ends may move inwards, and neither do stacks, which
read an extent of their own.
-/

namespace SceneLayout

open Scalar

/-- The number on the way from a value to a goal that has a part of this way before it. -/
def approach (left goal value : ℚ) : ℚ := goal + left * (value - goal)

theorem approach_self (left goal : ℚ) : approach left goal goal = goal := by
  rw [approach, sub_self, mul_zero, add_zero]

theorem approach_approach (left further goal value : ℚ) :
    approach further goal (approach left goal value) = approach (left * further) goal value := by
  simp only [approach]
  ring

/-- A shift of value and goal shifts what lies between them. -/
theorem approach_sub_add (left goal value shift : ℚ) :
    approach left (goal - shift) value + shift = approach left goal (value + shift) := by
  simp only [approach]
  ring

namespace Operator

/-! ## What partial moves keep -/

variable {left : ℚ} {values : List ℚ}

theorem lowest_map_approach (nonneg : 0 ≤ left) :
    lowest (values.map (approach left (lowest values))) = lowest values := by
  by_cases empty : values = []
  · rw [empty, List.map_nil]
  apply le_antisymm
  · apply lowest_le
    exact List.mem_map.mpr ⟨lowest values, lowest_mem empty, approach_self _ _⟩
  · have moved : values.map (approach left (lowest values)) ≠ [] :=
      fun none => empty (List.map_eq_nil_iff.mp none)
    obtain ⟨value, member, same⟩ := List.mem_map.mp (lowest_mem moved)
    rw [← same, approach]
    have above := mul_nonneg nonneg (sub_nonneg.mpr (lowest_le member))
    linarith

theorem highest_map_approach (nonneg : 0 ≤ left) :
    highest (values.map (approach left (highest values))) = highest values := by
  by_cases empty : values = []
  · rw [empty, List.map_nil]
  apply le_antisymm
  · have moved : values.map (approach left (highest values)) ≠ [] :=
      fun none => empty (List.map_eq_nil_iff.mp none)
    obtain ⟨value, member, same⟩ := List.mem_map.mp (highest_mem moved)
    rw [← same, approach]
    have below := mul_nonneg nonneg (sub_nonneg.mpr (le_highest member))
    linarith
  · apply le_highest
    exact List.mem_map.mpr ⟨highest values, highest_mem empty, approach_self _ _⟩

theorem sum_map_approach (left goal : ℚ) (values : List ℚ) :
    (values.map (approach left goal)).sum =
      approach left (values.length * goal) values.sum := by
  induction values with
  | nil => simp [approach]
  | cons value rest ih =>
      rw [List.map_cons, List.sum_cons, ih, List.sum_cons, List.length_cons]
      simp only [approach]
      push_cast
      ring

theorem meanCenter_eq (numbers : Nat → ℚ) (spans : List Span) :
    meanCenter numbers spans = (spans.map (centerOf numbers)).sum / spans.length := by
  rw [meanCenter, List.sum_eq_foldl, List.foldl_map, nat_eq_cast, nat_eq_cast, Nat.cast_zero]

/-- Centers that approach their mean keep it. -/
theorem meanCenter_of_approach {numbers other : Nat → ℚ} {spans : List Span}
    (h : ∀ span ∈ spans, centerOf other span =
      approach left (meanCenter numbers spans) (centerOf numbers span)) :
    meanCenter other spans = meanCenter numbers spans := by
  by_cases empty : spans = []
  · rw [empty]
    rfl
  have count : (spans.length : ℚ) ≠ 0 :=
    Nat.cast_ne_zero.mpr (fun none => empty (List.length_eq_zero_iff.mp none))
  have centers : spans.map (centerOf other) =
      (spans.map (centerOf numbers)).map (approach left (meanCenter numbers spans)) := by
    rw [List.map_map]
    exact List.map_congr_left h
  have total : spans.length * meanCenter numbers spans = (spans.map (centerOf numbers)).sum := by
    rw [meanCenter_eq, mul_div_cancel₀ _ count]
  calc
    meanCenter other spans
        = approach left (spans.length * meanCenter numbers spans)
            (spans.map (centerOf numbers)).sum / spans.length := by
          rw [meanCenter_eq other, centers, sum_map_approach, List.length_map]
    _ = meanCenter numbers spans := by
          rw [total, approach_self, ← meanCenter_eq]

/-! ## Steady aims -/

/-- The kinds of operators whose proposals do not change while their slots approach them. -/
def Steady : Operator ℚ → Prop
  | alignNear _ => True
  | alignFar _ => True
  | alignCenter _ => True
  | centerOn _ _ => True
  | distribute _ spacing => 0 < spacing
  | background _ _ _ => True
  | stack _ _ _ _ _ => False

/-- The numbers after all slots have approached the proposals of the operator. -/
def approached (left : ℚ) (numbers : Nat → ℚ) (operator : Operator ℚ) (slot : Nat) : ℚ :=
  approach left (operator.target numbers slot) (numbers slot)

theorem approached_of_not_mem {operator : Operator ℚ} {slot : Nat} (h : slot ∉ operator.slots)
    (left : ℚ) (numbers : Nat → ℚ) : operator.approached left numbers slot = numbers slot := by
  rw [approached, target_of_not_mem h, approach_self]

theorem moved_eq_approached (damping : ℚ) (operator : Operator ℚ) (numbers : Nat → ℚ) :
    operator.moved damping numbers = operator.approached (1 - damping) numbers := by
  ext slot
  by_cases own : slot ∈ operator.slots
  · rw [moved_of_mem own, approached, approach]
    ring
  · rw [moved_of_not_mem own, approached_of_not_mem own]

section Aims

variable {numbers other : Nat → ℚ} {spans : List Span}

theorem proposed_alignNear_of_approach {positions : List Nat} (nonneg : 0 ≤ left)
    (near : ∀ entry ∈ (alignNear positions).proposed numbers,
      other entry.1 = approach left entry.2 (numbers entry.1)) :
    (alignNear positions).proposed other = (alignNear positions).proposed numbers := by
  have places : positions.map other = (positions.map numbers).map
      (approach left (lowest (positions.map numbers))) := by
    rw [List.map_map]
    exact List.map_congr_left fun position member => near _ (List.mem_map_of_mem member)
  simp only [proposed, places, lowest_map_approach nonneg]

theorem proposed_alignFar_of_approach (nonneg : 0 ≤ left)
    (near : ∀ entry ∈ (alignFar spans).proposed numbers,
      other entry.1 = approach left entry.2 (numbers entry.1))
    (extents : ∀ span ∈ spans, other span.extent = numbers span.extent) :
    (alignFar spans).proposed other = (alignFar spans).proposed numbers := by
  have edges : spans.map (farEdge other) = (spans.map (farEdge numbers)).map
      (approach left (highest (spans.map (farEdge numbers)))) := by
    rw [List.map_map]
    apply List.map_congr_left
    intro span member
    have place := near _ (List.mem_map_of_mem member)
    rw [farEdge, place, extents span member]
    exact approach_sub_add _ _ _ _
  simp only [proposed, edges, highest_map_approach nonneg]
  exact List.map_congr_left fun span member => by rw [extents span member]

theorem proposed_alignCenter_of_approach
    (near : ∀ entry ∈ (alignCenter spans).proposed numbers,
      other entry.1 = approach left entry.2 (numbers entry.1))
    (extents : ∀ span ∈ spans, other span.extent = numbers span.extent) :
    (alignCenter spans).proposed other = (alignCenter spans).proposed numbers := by
  have centers : ∀ span ∈ spans, centerOf other span =
      approach left (meanCenter numbers spans) (centerOf numbers span) := by
    intro span member
    have place := near _ (List.mem_map_of_mem member)
    rw [centerOf, place, extents span member]
    exact approach_sub_add _ _ _ _
  simp only [proposed, meanCenter_of_approach centers]
  exact centered_congr extents _

theorem proposed_distribute_of_approach {spacing : ℚ} (positive : 0 < spacing)
    (near : ∀ entry ∈ (distribute spans spacing).proposed numbers,
      other entry.1 = approach left entry.2 (numbers entry.1))
    (extents : ∀ span ∈ spans, other span.extent = numbers span.extent) :
    (distribute spans spacing).proposed other = (distribute spans spacing).proposed numbers := by
  have apart : lt (nat 0) spacing = true := lt_iff.mpr (by simpa using positive)
  simp only [proposed, if_pos apart] at near ⊢
  by_cases few : spans.length < 2
  · rw [if_pos few, if_pos few]
  simp only [if_neg few] at near ⊢
  cases backwards : spans.reverse with
  | nil => rfl
  | cons last rest =>
      simp only [backwards] at near
      have stays : other last.position = numbers last.position :=
        (near _ List.mem_cons_self).trans (approach_self _ _)
      have among : ∀ span ∈ rest, span ∈ spans := by
        intro span member
        rw [← List.mem_reverse, backwards]
        exact List.mem_cons_of_mem _ member
      simp only [stays]
      rw [spaced_congr fun span member => extents span (among span member)]

end Aims

section Steady

variable {operator : Operator ℚ} (placed : operator.OnEntities)
  (distinct : operator.DistinctEntries) (steady : operator.Steady)
include placed distinct steady

/-- A steady operator proposes the same while its slots approach what it proposes. -/
theorem proposed_approached (nonneg : 0 ≤ left) (numbers : Nat → ℚ) :
    operator.proposed (operator.approached left numbers) = operator.proposed numbers := by
  have near : ∀ entry ∈ operator.proposed numbers,
      operator.approached left numbers entry.1 = approach left entry.2 (numbers entry.1) := by
    intro entry proposal
    rw [approached, target_of_mem_proposed placed distinct proposal]
  have extents : ∀ {spans : List Span}, (∀ span ∈ spans, span.OnEntity) →
      operator.slots = spans.map Span.position →
      ∀ span ∈ spans, operator.approached left numbers span.extent = numbers span.extent := by
    intro spans onEntity same span member
    apply approached_of_not_mem
    rw [same]
    exact not_mem_positions_of_isExtent onEntity (onEntity span member).isExtent
  cases operator with
  | alignNear positions => exact proposed_alignNear_of_approach nonneg near
  | alignFar spans => exact proposed_alignFar_of_approach nonneg near (extents placed rfl)
  | alignCenter spans => exact proposed_alignCenter_of_approach near (extents placed rfl)
  | centerOn anchor spans =>
      obtain ⟨ofAnchor, ofSpans⟩ := List.forall_mem_cons.mp placed
      have extentApart : anchor.extent ∉ (centerOn anchor spans : Operator ℚ).slots :=
        not_mem_positions_of_isExtent ofSpans ofAnchor.isExtent
      have center : centerOf ((centerOn anchor spans).approached left numbers) anchor =
          centerOf numbers anchor := by
        rw [centerOf, approached_of_not_mem (anchor_not_mem_slots placed distinct),
          approached_of_not_mem extentApart]
        rfl
      rw [proposed, proposed, center]
      exact centered_congr (extents ofSpans rfl) _
  | distribute spans spacing =>
      exact proposed_distribute_of_approach steady near (extents placed rfl)
  | background child box padding =>
      apply proposed_congr
      intro slot read
      exact approached_of_not_mem (not_mem_slots_of_mem_reads_background placed distinct read) _ _
  | stack axis children container spacing alignment => exact steady.elim

theorem target_approached (nonneg : 0 ≤ left) (numbers : Nat → ℚ) :
    operator.target (operator.approached left numbers) = operator.target numbers := by
  have same := proposed_approached placed distinct steady nonneg numbers
  ext slot
  by_cases listed : slot ∈ (operator.proposed numbers).map Prod.fst
  · rw [target, target, same]
    exact written_congr fun absent => absurd listed absent
  · have stays : operator.target numbers slot = numbers slot := written_of_not_mem listed numbers
    rw [target, same, written_of_not_mem listed, approached, stays, approach_self]

/-- Each damped move leaves the same part of the way. -/
theorem iterate_moved {damping : ℚ} (partly : damping ≤ 1) (numbers : Nat → ℚ) (count : Nat) :
    (operator.moved damping)^[count] numbers =
      operator.approached ((1 - damping) ^ count) numbers := by
  have nonneg : 0 ≤ 1 - damping := sub_nonneg.mpr partly
  induction count with
  | zero =>
      ext slot
      simp [approached, approach]
  | succ count ih =>
      rw [Function.iterate_succ_apply', ih, moved_eq_approached]
      ext slot
      rw [approached, target_approached placed distinct steady (pow_nonneg nonneg count),
        approached, approach_approach, ← pow_succ, approached]

end Steady

/-- What concerns an operator: the slots that it reads or writes. -/
def Touches {α : Type*} (operator : Operator α) (slot : Nat) : Prop :=
  slot ∈ operator.reads ∨ slot ∈ operator.slots

theorem Independent.not_mem_slots {α : Type*} {other operator : Operator α}
    (h : other.Independent operator) {slot : Nat} (touched : operator.Touches slot) :
    slot ∉ other.slots := by
  intro written
  obtain ⟨unread, foreign⟩ := h.left slot written
  exact touched.elim unread foreign

end Operator

namespace Relaxation

section Independent

variable {α : Type*} [Scalar α] {operators : List (Operator α)} {operator : Operator α}
  (independent : operators.Pairwise Operator.Independent) (member : operator ∈ operators)
include independent member

/-- Where an operator reads or writes, a pass over independent operators does what the operator does
alone. -/
theorem pass_eq_moved (damping : α) (numbers : Nat → α) {slot : Nat}
    (touched : operator.Touches slot) :
    pass damping operators numbers slot = operator.moved damping numbers slot := by
  obtain ⟨before, after, rfl⟩ := List.append_of_mem member
  obtain ⟨-, first, early⟩ := List.pairwise_append.mp independent
  have late := (List.pairwise_cons.mp first).1
  have undisturbed : ∀ slot, operator.Touches slot →
      pass damping before numbers slot = numbers slot := by
    intro slot touched
    apply pass_of_not_mem
    intro other listed
    exact (early other listed operator List.mem_cons_self).not_mem_slots touched
  have settled : ∀ other ∈ after, slot ∉ other.slots :=
    fun other listed => (late other listed).symm.not_mem_slots touched
  calc
    pass damping (before ++ operator :: after) numbers slot
        = pass damping after (operator.moved damping (pass damping before numbers)) slot := by
          rw [pass_append]
          rfl
    _ = operator.moved damping (pass damping before numbers) slot := pass_of_not_mem settled _ _
    _ = operator.moved damping numbers slot :=
          Operator.moved_congr (fun _ _ _ _ read => .inl read) undisturbed damping slot touched

/-- So some passes over independent operators do what as many moves of the operator do. -/
theorem afterPasses_eq_iterate_moved (damping : α) (numbers : Nat → α) (count : Nat) :
    ∀ slot, operator.Touches slot → afterPasses damping operators numbers count slot =
      (operator.moved damping)^[count] numbers slot := by
  induction count with
  | zero => exact fun _ _ => rfl
  | succ count ih =>
      intro slot touched
      rw [afterPasses_succ, pass_eq_moved independent member _ _ touched,
        Function.iterate_succ_apply']
      exact Operator.moved_congr (fun _ _ _ _ read => .inl read) ih damping slot touched

end Independent

end Relaxation

/-- Steady operators on distinct entities, none of which writes what another one reads or writes. -/
structure Undisturbed (operators : List (Operator ℚ)) : Prop where
  onEntities : ∀ operator ∈ operators, operator.OnEntities
  distinct : ∀ operator ∈ operators, operator.DistinctEntries
  steady : ∀ operator ∈ operators, operator.Steady
  independent : operators.Pairwise Operator.Independent

/-- Relaxed under steady operators that do not disturb each other, every slot that an operator owns
approaches the place that the operator proposes for it at the start. Each pass leaves the undamped
part of the way, and no other slot is moved. Passes are made until the budget is spent or one of
them has converged. -/
theorem relax_approaches_proposals {settings : Settings ℚ} {operators : List (Operator ℚ)}
    {buffer : Buffer ℚ} (undisturbed : Undisturbed operators)
    (inside : ∀ operator ∈ operators, operator.Inside buffer.size)
    (partly : settings.damping ≤ 1) :
    ∃ final stats, relax settings operators buffer = .ok (final, stats) ∧
      stats.passes ≤ settings.budget ∧
      (stats.passes < settings.budget → 0 < stats.passes ∧ stats.converged = true) ∧
      (∀ operator ∈ operators, ∃ proposal, operator.eval buffer buffer = .ok proposal ∧
        ∀ slot ∈ operator.slots, ∃ start aim, buffer[slot]? = some start ∧
          proposal[slot]? = some aim ∧
          final[slot]? =
            some (aim + (1 - settings.damping) ^ stats.passes * (start - aim))) ∧
      ∀ slot, (∀ operator ∈ operators, slot ∉ operator.slots) → final[slot]? = buffer[slot]? := by
  obtain ⟨count, final, ran, size, reached, stops⟩ := Relaxation.relax_eq_ok inside settings
  refine ⟨final, _, ran, stops.within, ?_, ?_, ?_⟩
  · intro early
    obtain ⟨residual, last, small⟩ := stops.small_of_lt early
    constructor
    · apply Nat.pos_of_ne_zero
      rintro rfl
      cases last
    · simp only [Relaxation.statsAfter, last]
      exact Settings.satisfiedBy_some.mpr small
  · intro operator member
    obtain ⟨proposal, evaluated, proposalSize, proposed⟩ :=
      Operator.eval_eq_ok (inside operator member) rfl
    refine ⟨proposal, evaluated, ?_⟩
    intro slot own
    have small : slot < buffer.size := inside operator member slot (.inr own)
    have aim : proposal.numbers slot = operator.target buffer.numbers slot :=
      congrFun proposed slot
    refine ⟨buffer.numbers slot, operator.target buffer.numbers slot,
      Buffer.getElem?_eq_numbers small, ?_, ?_⟩
    · rw [Buffer.getElem?_eq_numbers (proposalSize ▸ small), aim]
    · have approached := Operator.iterate_moved (undisturbed.onEntities operator member)
        (undisturbed.distinct operator member) (undisturbed.steady operator member) partly
        buffer.numbers count
      rw [Buffer.getElem?_eq_numbers (size ▸ small), reached,
        Relaxation.afterPasses_eq_iterate_moved undisturbed.independent member _ _ _ _ (.inr own),
        approached]
      rfl
  · intro slot foreign
    apply Buffer.getElem?_eq_of_numbers_eq size
    rw [reached, Relaxation.afterPasses_of_not_mem foreign]

/-- Two notes at one left edge, one below the other, and a frame around a third one. -/
def columnBesideFrame : List (Operator ℚ) :=
  [.alignNear [0, 4], .distribute [⟨1, 3⟩, ⟨5, 7⟩] 2, .background 8 12 1]

/-- The notes where they are declared, and no frame yet. -/
def columnBesideFrameBuffer : Buffer ℚ := #[3, 0, 5, 5, 7, 20, 5, 5, 30, 1, 4, 4, 0, 0, 0, 0]

theorem undisturbed_columnBesideFrame : Undisturbed columnBesideFrame where
  onEntities := by
    simp only [columnBesideFrame, Operator.OnEntities, List.forall_mem_cons]
    exact ⟨⟨⟨.x, 0, rfl⟩, ⟨.x, 1, rfl⟩, List.forall_mem_nil _⟩,
      ⟨⟨.y, 0, rfl⟩, ⟨.y, 1, rfl⟩, List.forall_mem_nil _⟩,
      ⟨⟨2, rfl⟩, ⟨3, rfl⟩, List.forall_mem_nil _⟩, List.forall_mem_nil _⟩
  distinct := by
    simp only [columnBesideFrame, Operator.DistinctEntries, List.forall_mem_cons]
    exact ⟨by decide, by decide, by decide, List.forall_mem_nil _⟩
  steady := by
    simp only [columnBesideFrame, List.forall_mem_cons]
    exact ⟨trivial, two_pos, trivial, List.forall_mem_nil _⟩
  independent := by decide

/-- The upper note goes down from 0 towards 13, the place above the lower one. Each of the three
passes leaves half of the way, so 13/8 is left and the note ends at 91/8; what no operator owns
stays. -/
theorem relax_approaches_columnBesideFrame :
    Undisturbed columnBesideFrame ∧ ∃ final stats,
      relax ⟨3, 0, 1 / 2⟩ columnBesideFrame columnBesideFrameBuffer = .ok (final, stats) ∧
      stats.passes = 3 ∧ final[1]? = some (13 + (1 - 1 / 2) ^ 3 * (0 - 13)) ∧
      final[1]? = some (91 / 8) ∧ final[2]? = some 5 := by
  have inside : ∀ operator ∈ columnBesideFrame,
      operator.Inside columnBesideFrameBuffer.size := by decide
  have partly : (⟨3, 0, 1 / 2⟩ : Settings ℚ).damping ≤ 1 := by norm_num
  obtain ⟨final, stats, ran, -, -, own, others⟩ :=
    relax_approaches_proposals undisturbed_columnBesideFrame inside partly
  have counted : (relax ⟨3, 0, 1 / 2⟩ columnBesideFrame columnBesideFrameBuffer).toOption.map
      (fun result => result.2.passes) = some 3 := by
    decide +kernel
  rw [ran] at counted
  have passes : stats.passes = 3 := Option.some.inj counted
  have proposed : (Operator.distribute [⟨1, 3⟩, ⟨5, 7⟩] 2).eval columnBesideFrameBuffer
      columnBesideFrameBuffer = .ok #[3, 13, 5, 5, 7, 20, 5, 5, 30, 1, 4, 4, 0, 0, 0, 0] := by
    decide +kernel
  obtain ⟨proposal, evaluated, approaches⟩ :=
    own (.distribute [⟨1, 3⟩, ⟨5, 7⟩] 2) (List.mem_cons_of_mem _ List.mem_cons_self)
  cases evaluated.symm.trans proposed
  obtain ⟨start, aim, atStart, atAim, atEnd⟩ := approaches 1 (by decide)
  cases atStart
  cases atAim
  rw [passes] at atEnd
  have reached : (13 + (1 - 1 / 2) ^ 3 * (0 - 13) : ℚ) = 91 / 8 := by norm_num
  exact ⟨undisturbed_columnBesideFrame, final, stats, ran, passes, atEnd,
    atEnd.trans (congrArg some reached), others 2 (by decide)⟩

end SceneLayout
