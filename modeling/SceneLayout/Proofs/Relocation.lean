import SceneLayout.Proofs.Independence
import SceneLayout.Proofs.Placement

/-!
# Relocated entities

A relaxation does not see where an entity stands in the buffer, nor which of the two axes comes
first. If the entities are put elsewhere and all operators follow them, then every pass does at the
new slots what it did at the old ones, and slots that no entity has been put to are left alone.

## Implementation notes

Proposals are relocated one by one and in their order. Only a background has an order of its own,
that of the axes; it names four different slots, so the order in which it writes them is not seen.
The changes of a pass come in another order then, which its residual does not tell.

Main statement: `relax_relocate`.
-/

namespace SceneLayout

universe u

variable {α : Type u}

open Scalar

/-- Where slots, first slots of entities and axes go. Entities stay whole, and different slots go to
different ones. -/
structure Relocation where
  slot : Nat → Nat
  base : Nat → Nat
  axis : Axis → Axis
  injective : Function.Injective slot
  position : ∀ rank direction,
    slot (baseOf rank + Axis.position direction) = base (baseOf rank) + (axis direction).position
  extent : ∀ rank direction,
    slot (baseOf rank + Axis.extent direction) = base (baseOf rank) + (axis direction).extent
  cross : ∀ direction, axis direction.cross = (axis direction).cross

/-- The span with both slots put elsewhere. -/
def Span.relocate (relocation : Relocation) (span : Span) : Span :=
  ⟨relocation.slot span.position, relocation.slot span.extent⟩

/-- The operator on the entities that have been put elsewhere. -/
def Operator.relocate (relocation : Relocation) : Operator α → Operator α
  | alignNear positions => .alignNear (positions.map relocation.slot)
  | alignFar spans => .alignFar (spans.map (Span.relocate relocation))
  | alignCenter spans => .alignCenter (spans.map (Span.relocate relocation))
  | centerOn anchor spans =>
      .centerOn (anchor.relocate relocation) (spans.map (Span.relocate relocation))
  | distribute spans spacing => .distribute (spans.map (Span.relocate relocation)) spacing
  | background child box padding =>
      .background (relocation.base child) (relocation.base box) padding
  | stack axis children container spacing alignment =>
      .stack (relocation.axis axis) (children.map relocation.base) (relocation.base container)
        spacing alignment

theorem perm_swap_pairs {β : Type*} (a b c d : β) : [a, b, c, d].Perm [b, a, d, c] :=
  (List.Perm.swap b a [c, d]).trans (((List.Perm.swap d c []).cons a).cons b)

namespace Relocation

variable (relocation : Relocation) {base : Nat} (placed : ∃ rank, base = baseOf rank)
include placed

theorem slot_position (axis : Axis) : relocation.slot (base + axis.position) =
    relocation.base base + (relocation.axis axis).position := by
  obtain ⟨rank, rfl⟩ := placed
  exact relocation.position rank axis

theorem slot_extent (axis : Axis) : relocation.slot (base + axis.extent) =
    relocation.base base + (relocation.axis axis).extent := by
  obtain ⟨rank, rfl⟩ := placed
  exact relocation.extent rank axis

/-- The slots of an entity in their old order. -/
theorem map_slot_four : [base, base + 1, base + 2, base + 3].map relocation.slot =
    [relocation.base base + (relocation.axis .x).position,
      relocation.base base + (relocation.axis .x).cross.position,
      relocation.base base + (relocation.axis .x).extent,
      relocation.base base + (relocation.axis .x).cross.extent] := by
  rw [← relocation.cross, ← relocation.slot_position placed, ← relocation.slot_position placed,
    ← relocation.slot_extent placed, ← relocation.slot_extent placed]
  rfl

/-- They are the slots of an entity, in order if the axes keep theirs, and else in pairs the other
way round. -/
theorem perm_four : [relocation.base base, relocation.base base + 1, relocation.base base + 2,
    relocation.base base + 3].Perm ([base, base + 1, base + 2, base + 3].map relocation.slot) := by
  rw [relocation.map_slot_four placed]
  cases relocation.axis .x with
  | x => exact .refl _
  | y => exact perm_swap_pairs _ _ _ _

end Relocation

/-! ## Written entries -/

/-- Entries can be written before or after their slots are put elsewhere. -/
theorem written_image {f : Nat → Nat} (injective : Function.Injective f)
    (entries : List (Nat × α)) (numbers : Nat → α) :
    written (entries.map (Prod.map f id)) numbers ∘ f = written entries (numbers ∘ f) := by
  induction entries generalizing numbers with
  | nil => rfl
  | cons entry rest ih =>
      rw [List.map_cons, written_cons, ih, written_cons, Prod.map_fst,
        Function.update_comp_eq_of_injective numbers injective]
      rfl

/-- The order of entries for different slots is not seen. -/
theorem written_perm {entries others : List (Nat × α)} (permuted : entries.Perm others)
    (distinct : (entries.map Prod.fst).Nodup) (numbers : Nat → α) :
    written entries numbers = written others numbers := by
  have names := permuted.map Prod.fst
  ext slot
  by_cases named : slot ∈ entries.map Prod.fst
  · obtain ⟨entry, member, rfl⟩ := List.mem_map.mp named
    rw [written_of_mem distinct member,
      written_of_mem (names.nodup_iff.mp distinct) (permuted.subset member)]
  · rw [written_of_not_mem named, written_of_not_mem fun other => named (names.symm.subset other)]

namespace Operator

variable (relocation : Relocation)

theorem perm_slots_relocate {operator : Operator α} (placed : operator.OnEntities) :
    (operator.relocate relocation).slots.Perm (operator.slots.map relocation.slot) := by
  cases operator with
  | alignNear positions => exact .refl _
  | background child box padding => exact relocation.perm_four (placed box (by simp))
  | stack axis children container spacing alignment =>
      obtain ⟨ofContainer, ofChildren⟩ := List.forall_mem_cons.mp placed
      have same : (relocate relocation (stack axis children container spacing alignment)).slots =
          (stack axis children container spacing alignment).slots.map relocation.slot := by
        simp only [relocate, slots, List.map_append, List.map_flatMap, List.flatMap_map,
          List.map_cons, List.map_nil, relocation.slot_extent ofContainer, relocation.cross]
        congr 1
        apply List.flatMap_congr
        intro base member
        simp only [relocation.slot_position (ofChildren base member), relocation.cross]
      rw [same]
  | _ =>
      rw [relocate, slots, slots, List.map_map, List.map_map]
      exact .refl _

theorem both_relocate (spans : List Span) :
    reads.both (spans.map (Span.relocate relocation)) =
      (reads.both spans).map relocation.slot := by
  rw [reads.both, reads.both, List.flatMap_map, List.map_flatMap]
  rfl

theorem perm_reads_relocate {operator : Operator α} (placed : operator.OnEntities) :
    (operator.relocate relocation).reads.Perm (operator.reads.map relocation.slot) := by
  cases operator with
  | alignNear positions => exact .refl _
  | background child box padding => exact relocation.perm_four (placed child (by simp))
  | stack axis children container spacing alignment =>
      obtain ⟨ofContainer, ofChildren⟩ := List.forall_mem_cons.mp placed
      have same : (relocate relocation (stack axis children container spacing alignment)).reads =
          (stack axis children container spacing alignment).reads.map relocation.slot := by
        simp only [relocate, reads, List.map_flatMap, List.flatMap_map, List.map_cons, List.map_nil,
          relocation.slot_extent ofContainer, relocation.cross]
        congr 1
        apply List.flatMap_congr
        intro base member
        simp only [relocation.slot_extent (ofChildren base member), relocation.cross]
      rw [same]
  | centerOn anchor spans =>
      rw [relocate, reads, reads, ← List.map_cons, both_relocate]
  | _ => rw [relocate, reads, reads, both_relocate]

variable [Scalar α] (numbers : Nat → α)

/-! ## Proposals -/

theorem centered_relocate (center : α) (spans : List Span) :
    centered numbers center (spans.map (Span.relocate relocation)) =
      (centered (numbers ∘ relocation.slot) center spans).map (Prod.map relocation.slot id) := by
  rw [centered, centered, List.map_map, List.map_map]
  rfl

theorem meanCenter_relocate (spans : List Span) :
    meanCenter numbers (spans.map (Span.relocate relocation)) =
      meanCenter (numbers ∘ relocation.slot) spans := by
  rw [meanCenter, meanCenter, List.foldl_map, List.length_map]
  rfl

theorem spaced_relocate (spacing place : α) (spans : List Span) :
    spaced numbers spacing place (spans.map (Span.relocate relocation)) =
      (spaced (numbers ∘ relocation.slot) spacing place spans).map
        (Prod.map relocation.slot id) := by
  induction spans generalizing place with
  | nil => rfl
  | cons span rest ih =>
      simp only [List.map_cons, spaced, ih]
      rfl

theorem spreadProposals_relocate (first step : α) (index : Nat) (spans : List Span) :
    spreadProposals first step index (spans.map (Span.relocate relocation)) =
      (spreadProposals first step index spans).map (Prod.map relocation.slot id) := by
  induction spans generalizing index with
  | nil => rfl
  | cons span rest ih =>
      simp only [List.map_cons, spreadProposals, ih]
      rfl

theorem proposed_distribute_relocate (spans : List Span) (spacing : α) :
    (relocate relocation (distribute spans spacing)).proposed numbers =
      ((distribute spans spacing).proposed (numbers ∘ relocation.slot)).map
        (Prod.map relocation.slot id) := by
  have values : (spans.map (Span.relocate relocation)).map (fun span => numbers span.position) =
      spans.map fun span => (numbers ∘ relocation.slot) span.position := by
    rw [List.map_map]
    rfl
  simp only [relocate, proposed, List.length_map, values, spreadProposals_relocate,
    ← List.map_reverse]
  split
  · rfl
  · split
    · cases spans.reverse with
      | nil => rfl
      | cons last others =>
          simp only [List.map_cons, spaced_relocate]
          rfl
    · rfl

section Children

variable {relocation} {children : List Nat} (placed : ∀ base ∈ children, ∃ rank, base = baseOf rank)
include placed

theorem stacked_relocate (axis : Axis) (spacing : α) (alignment : Alignment) (room place : α) :
    stacked numbers (relocation.axis axis) spacing alignment room place
        (children.map relocation.base) =
      (stacked (numbers ∘ relocation.slot) axis spacing alignment room place children).map
        (Prod.map relocation.slot id) := by
  induction children generalizing place with
  | nil => rfl
  | cons base rest ih =>
      obtain ⟨here, later⟩ := List.forall_mem_cons.mp placed
      simp only [List.map_cons, stacked, ih later, Prod.map_apply, id, Function.comp_apply,
        relocation.slot_position here, relocation.slot_extent here, relocation.cross]

theorem stackEnd_relocate (axis : Axis) (spacing place : α) :
    stackEnd numbers (relocation.axis axis) spacing place (children.map relocation.base) =
      stackEnd (numbers ∘ relocation.slot) axis spacing place children := by
  rw [stackEnd, stackEnd, List.foldl_map]
  apply List.foldl_ext
  intro place base member
  rw [Function.comp_apply, relocation.slot_extent (placed base member)]

theorem stackWidest_relocate (axis : Axis) (widest : α) :
    stackWidest numbers (relocation.axis axis) widest (children.map relocation.base) =
      stackWidest (numbers ∘ relocation.slot) axis widest children := by
  rw [stackWidest, stackWidest, List.map_map]
  congr 1
  apply List.map_congr_left
  intro base member
  rw [Function.comp_apply, Function.comp_apply, relocation.slot_extent (placed base member),
    relocation.cross]

end Children

theorem proposed_stack_relocate {axis : Axis} {children : List Nat} {container : Nat} {spacing : α}
    {alignment : Alignment}
    (placed : (stack axis children container spacing alignment).OnEntities) :
    (relocate relocation (stack axis children container spacing alignment)).proposed numbers =
      ((stack axis children container spacing alignment).proposed
        (numbers ∘ relocation.slot)).map (Prod.map relocation.slot id) := by
  obtain ⟨ofContainer, ofChildren⟩ := List.forall_mem_cons.mp placed
  simp only [relocate, proposed, stacked_relocate numbers ofChildren,
    stackEnd_relocate numbers ofChildren, stackWidest_relocate numbers ofChildren, List.isEmpty_map,
    List.map_append, List.map_cons, List.map_nil, Prod.map_apply, id, Function.comp_apply,
    relocation.slot_extent ofContainer, relocation.cross]

/-- A background proposes the same for its box, maybe in another order. -/
theorem perm_proposed_background_relocate {child box : Nat} {padding : α}
    (placed : (background child box padding).OnEntities) :
    ((relocate relocation (background child box padding)).proposed numbers).Perm
      (((background child box padding).proposed (numbers ∘ relocation.slot)).map
        (Prod.map relocation.slot id)) := by
  have ofChild := relocation.map_slot_four (placed child (by simp))
  have ofBox := relocation.map_slot_four (placed box (by simp))
  simp only [List.map_cons, List.map_nil, List.cons.injEq, and_true] at ofChild ofBox
  simp only [relocate, proposed, List.map_cons, List.map_nil, Prod.map_apply, id,
    Function.comp_apply, ofChild, ofBox]
  cases relocation.axis .x with
  | x => exact .refl _
  | y => exact perm_swap_pairs _ _ _ _

/-! ## Steps of a pass -/

variable {operator : Operator α} (placed : operator.OnEntities)
include placed

/-- A relocated operator wants at the new slots what it wanted at the old ones. -/
theorem target_relocate : (operator.relocate relocation).target numbers ∘ relocation.slot =
    operator.target (numbers ∘ relocation.slot) := by
  have written_relocate {image : Operator α}
      (same : image.proposed numbers =
        (operator.proposed (numbers ∘ relocation.slot)).map (Prod.map relocation.slot id)) :
      image.target numbers ∘ relocation.slot = operator.target (numbers ∘ relocation.slot) := by
    change written (image.proposed numbers) numbers ∘ _ = _
    rw [same]
    exact written_image relocation.injective _ numbers
  cases operator with
  | alignNear positions =>
      apply written_relocate
      simp only [relocate, proposed, List.map_map]
      rfl
  | alignFar spans =>
      apply written_relocate
      simp only [relocate, proposed, List.map_map]
      rfl
  | alignCenter spans =>
      apply written_relocate
      rw [relocate, proposed, meanCenter_relocate, centered_relocate]
      rfl
  | centerOn anchor spans =>
      apply written_relocate
      rw [relocate, proposed, centered_relocate]
      rfl
  | distribute spans spacing =>
      exact written_relocate (proposed_distribute_relocate relocation numbers spans spacing)
  | stack axis children container spacing alignment =>
      exact written_relocate (proposed_stack_relocate relocation numbers placed)
  | background child box padding =>
      have distinct :
          (((background (relocation.base child) (relocation.base box) padding).proposed
            numbers).map Prod.fst).Nodup := by
        simp [proposed]
      change written _ numbers ∘ _ = _
      rw [written_perm (perm_proposed_background_relocate relocation numbers placed) distinct]
      exact written_image relocation.injective _ numbers

omit [Scalar α] in
theorem slot_mem_slots_relocate {slot : Nat} :
    relocation.slot slot ∈ (operator.relocate relocation).slots ↔ slot ∈ operator.slots := by
  rw [(perm_slots_relocate relocation placed).mem_iff,
    List.mem_map_of_injective relocation.injective]

theorem moved_relocate (damping : α) :
    (operator.relocate relocation).moved damping numbers ∘ relocation.slot =
      operator.moved damping (numbers ∘ relocation.slot) := by
  ext slot
  have target := congrFun (target_relocate relocation numbers placed) slot
  simp only [Function.comp_apply, moved, slot_mem_slots_relocate relocation placed] at target ⊢
  rw [target]

theorem perm_changes_relocate :
    ((operator.relocate relocation).changes numbers).Perm
      (operator.changes (numbers ∘ relocation.slot)) := by
  have distinct : (operator.slots.eraseDups.map relocation.slot).Nodup :=
    (nodup_eraseDups _).map relocation.injective
  have slots : (operator.relocate relocation).slots.eraseDups.Perm
      (operator.slots.eraseDups.map relocation.slot) := by
    rw [List.perm_ext_iff_of_nodup (nodup_eraseDups _) distinct]
    intro slot
    rw [List.mem_eraseDups, (perm_slots_relocate relocation placed).mem_iff, List.mem_map,
      List.mem_map]
    simp only [List.mem_eraseDups]
  refine (slots.map _).trans (.of_eq ?_)
  rw [List.map_map, changes]
  apply List.map_congr_left
  intro slot _
  have target := congrFun (target_relocate relocation numbers placed) slot
  rw [Function.comp_apply] at target ⊢
  rw [target, Function.comp_apply]

end Operator

namespace Relaxation

/-! ## Passes -/

section Passes

variable [Scalar α] (relocation : Relocation) {operators : List (Operator α)}
  (placed : ∀ operator ∈ operators, operator.OnEntities) (damping : α) (numbers : Nat → α)
include placed

theorem pass_relocate :
    pass damping (operators.map (Operator.relocate relocation)) numbers ∘ relocation.slot =
      pass damping operators (numbers ∘ relocation.slot) := by
  induction operators generalizing numbers with
  | nil => rfl
  | cons operator rest ih =>
      obtain ⟨first, others⟩ := List.forall_mem_cons.mp placed
      calc
        pass damping ((operator :: rest).map (Operator.relocate relocation)) numbers ∘
              relocation.slot
            = pass damping rest
                ((operator.relocate relocation).moved damping numbers ∘ relocation.slot) :=
          ih others _
        _ = pass damping rest (operator.moved damping (numbers ∘ relocation.slot)) := by
          rw [operator.moved_relocate relocation numbers first]

theorem perm_passChanges_relocate :
    (passChanges damping (operators.map (Operator.relocate relocation)) numbers).Perm
      (passChanges damping operators (numbers ∘ relocation.slot)) := by
  induction operators generalizing numbers with
  | nil => exact .refl _
  | cons operator rest ih =>
      obtain ⟨first, others⟩ := List.forall_mem_cons.mp placed
      rw [List.map_cons, passChanges, passChanges,
        ← operator.moved_relocate relocation numbers first]
      exact (operator.perm_changes_relocate relocation numbers first).append (ih others _)

theorem afterPasses_relocate (count : Nat) :
    afterPasses damping (operators.map (Operator.relocate relocation)) numbers count ∘
        relocation.slot =
      afterPasses damping operators (numbers ∘ relocation.slot) count := by
  induction count with
  | zero => rfl
  | succ count ih => rw [afterPasses_succ, pass_relocate relocation placed, ih, afterPasses_succ]

theorem residualAfter_relocate [OrdersPositives α] (count : Nat) :
    residualAfter damping (operators.map (Operator.relocate relocation)) numbers count =
      residualAfter damping operators (numbers ∘ relocation.slot) count := by
  cases count with
  | zero => rfl
  | succ count =>
      have floor : IsFloor (nat 0 : α) := .inl rfl
      rw [residualAfter, residualAfter, ← afterPasses_relocate relocation placed]
      exact congrArg some
        (floor.greatest_perm (perm_passChanges_relocate relocation placed damping _))

/-- Slots that nothing is put to keep their numbers. -/
theorem afterPasses_relocate_of_not_mem {slot : Nat} (free : slot ∉ Set.range relocation.slot)
    (count : Nat) :
    afterPasses damping (operators.map (Operator.relocate relocation)) numbers count slot =
      numbers slot := by
  apply afterPasses_of_not_mem
  intro image member own
  obtain ⟨operator, listed, rfl⟩ := List.mem_map.mp member
  rw [(operator.perm_slots_relocate relocation (placed operator listed)).mem_iff] at own
  obtain ⟨old, _, same⟩ := List.mem_map.mp own
  exact free ⟨old, same⟩

end Passes

end Relaxation

/-- Where entities are put elsewhere and operators follow them, a relaxation reports the same and
leaves the same numbers at the new slots, whatever the settings and the numbers it starts from.
Slots that nothing is put to keep their numbers. -/
theorem relax_relocate [Scalar α] [OrdersPositives α] (relocation : Relocation)
    (settings : Settings α) {operators : List (Operator α)} {first second : Buffer α}
    (placed : ∀ operator ∈ operators, operator.OnEntities)
    (inside : ∀ operator ∈ operators, operator.Inside first.size)
    (insideImage : ∀ operator ∈ operators.map (Operator.relocate relocation),
      operator.Inside second.size)
    (start : second.numbers ∘ relocation.slot = first.numbers) :
    ∃ final image stats,
      relax settings operators first = .ok (final, stats) ∧
      relax settings (operators.map (Operator.relocate relocation)) second = .ok (image, stats) ∧
      final.size = first.size ∧ image.size = second.size ∧
      image.numbers ∘ relocation.slot = final.numbers ∧
      ∀ slot ∉ Set.range relocation.slot, image.numbers slot = second.numbers slot := by
  obtain ⟨count, final, ran, size, numbers, stops⟩ := Relaxation.relax_eq_ok inside settings
  obtain ⟨count', image, ran', size', numbers', stops'⟩ :=
    Relaxation.relax_eq_ok insideImage settings
  have residual := Relaxation.residualAfter_relocate relocation placed settings.damping
    second.numbers
  rw [start] at residual
  have agree : Relaxation.StopsAfter settings (operators.map (Operator.relocate relocation))
      second.numbers settings.budget count :=
    ⟨stops.within, fun k small => residual k ▸ stops.calledFor k small,
      fun early => residual count ▸ stops.stopped early⟩
  obtain rfl := agree.unique stops'
  refine ⟨final, image, _, ran, ?_, size, size', ?_, ?_⟩
  · rw [ran', Relaxation.statsAfter, residual, Relaxation.statsAfter]
  · rw [numbers', numbers, Relaxation.afterPasses_relocate relocation placed, start]
  · intro slot free
    rw [numbers', Relaxation.afterPasses_relocate_of_not_mem relocation placed _ _ free]

end SceneLayout
