import SceneLayout.Proofs.Placement

/-!
# The operators of shapes

The operator of a shape is built from the rank of the node and those of its children. It
works on entities, on distinct ones if the ranks are distinct, and touches no other
entity than these. What it writes it also reads, unless it is the operator of a
background, which never looks at its own box.

Main statements: `onEntities_of_operator?`, `distinctEntries_of_operator?`,
`owner_mem_of_operator?`, `exists_read_of_mem_slots`.
-/

namespace SceneLayout

universe u

variable {α : Type u}

theorem baseOf_add_div (rank : Nat) {offset : Nat} (h : offset < 4) :
    (baseOf rank + offset) / slotsPerEntity = rank := by
  simp only [baseOf, slotsPerEntity]
  omega

theorem mem_map_spanOf {axis : Axis} {ranks : List Nat} {span : Span}
    (h : span ∈ ranks.map (spanOf axis)) :
    span.OnEntity ∧ span.position / slotsPerEntity ∈ ranks ∧
      span.extent / slotsPerEntity ∈ ranks := by
  obtain ⟨rank, member, rfl⟩ := List.mem_map.mp h
  refine ⟨⟨axis, rank, rfl⟩, ?_, ?_⟩
  · rwa [spanOf, baseOf_add_div rank axis.position_lt]
  · rwa [spanOf, baseOf_add_div rank axis.extent_lt]

theorem spanOf_injective (axis : Axis) : Function.Injective (spanOf axis) := by
  intro first second same
  have positions := congrArg Span.position same
  simp only [spanOf, baseOf, slotsPerEntity] at positions
  omega

theorem baseOf_injective : Function.Injective baseOf := by
  intro first second same
  simp only [baseOf, slotsPerEntity] at same
  omega

/-- Centers are aligned at their mean, or along the first axis on the last of several entities. -/
theorem alignOperator_center (axis : Axis) (children : List Nat) :
    (alignOperator axis .center children : Operator α) =
        .alignCenter (children.map (spanOf axis)) ∨
      ∃ others last, axis = .x ∧ children = others ++ [last] ∧
        (alignOperator axis .center children : Operator α) =
          .centerOn (spanOf .x last) (others.map (spanOf .x)) := by
  simp only [alignOperator]
  split
  · rename_i last first others final start
    refine .inr ⟨first :: others, last, rfl, ?_, rfl⟩
    rw [← start, List.dropLast_append_getLast? last final]
  · exact .inl rfl

/-- Centers of several entities along the first axis follow the last one. -/
theorem alignOperator_anchored (first last : Nat) (rest : List Nat) :
    (alignOperator .x .center (first :: rest ++ [last]) : Operator α) =
      .centerOn (spanOf .x last) ((first :: rest).map (spanOf .x)) := by
  simp only [alignOperator, List.getLast?_concat, List.dropLast_concat]

namespace Operator

/-- The operator sets a box around a child. -/
def IsBackground : Operator α → Prop
  | background _ _ _ => True
  | _ => False

/-- Unless it sets a box, an operator reads some slot of every entity that it writes. -/
theorem exists_read_of_mem_slots {operator : Operator α} (placed : operator.OnEntities)
    (noBox : ¬operator.IsBackground) {slot : Nat} (own : slot ∈ operator.slots) :
    ∃ read ∈ operator.reads, read / slotsPerEntity = slot / slotsPerEntity := by
  have inSpans : ∀ {spans : List Span}, slot ∈ spans.map Span.position →
      slot ∈ reads.both.{u} spans := by
    intro spans listed
    obtain ⟨span, member, rfl⟩ := List.mem_map.mp listed
    exact mem_both.mpr ⟨span, member, .inl rfl⟩
  cases operator with
  | alignNear positions => exact ⟨slot, own, rfl⟩
  | alignFar spans => exact ⟨slot, inSpans own, rfl⟩
  | alignCenter spans => exact ⟨slot, inSpans own, rfl⟩
  | centerOn anchor spans =>
      exact ⟨slot, List.mem_cons_of_mem _ (List.mem_cons_of_mem _ (inSpans own)), rfl⟩
  | distribute spans spacing => exact ⟨slot, inSpans own, rfl⟩
  | background child box padding => exact absurd trivial noBox
  | stack axis children container spacing alignment =>
      have same : ∀ base ∈ container :: children, ∀ first second, first < 4 → second < 4 →
          (base + first) / slotsPerEntity = (base + second) / slotsPerEntity := by
        intro base member first second small small'
        obtain ⟨rank, rfl⟩ := placed base member
        rw [baseOf_add_div rank small, baseOf_add_div rank small']
      rcases mem_slots_stack.mp own with ⟨base, member, rfl | rfl⟩ | rfl | rfl
      · exact ⟨base + axis.extent, mem_reads_stack.mpr (.inr ⟨base, member, .inl rfl⟩),
          same base (List.mem_cons_of_mem _ member) _ _ axis.extent_lt axis.position_lt⟩
      · exact ⟨base + axis.extent, mem_reads_stack.mpr (.inr ⟨base, member, .inl rfl⟩),
          same base (List.mem_cons_of_mem _ member) _ _ axis.extent_lt axis.cross.position_lt⟩
      · exact ⟨container + axis.cross.extent, mem_reads_stack.mpr (.inl rfl),
          same container List.mem_cons_self _ _ axis.cross.extent_lt axis.extent_lt⟩
      · exact ⟨container + axis.cross.extent, mem_reads_stack.mpr (.inl rfl), rfl⟩

end Operator

namespace Shape

variable {shape : Shape α} {rank : Nat} {children : List Nat} {operator : Operator α}

/-- The operator of a shape works on entities. -/
theorem onEntities_of_operator? (h : shape.operator? rank children = some operator) :
    operator.OnEntities := by
  have bases : ∀ base ∈ baseOf rank :: children.map baseOf, ∃ rank, base = baseOf rank := by
    intro base member
    rcases List.mem_cons.mp member with rfl | member
    · exact ⟨rank, rfl⟩
    · obtain ⟨child, _, rfl⟩ := List.mem_map.mp member
      exact ⟨child, rfl⟩
  cases shape with
  | stack axis spacing alignment =>
      cases h
      exact bases
  | distribute axis spacing =>
      cases h
      exact fun span member => (mem_map_spanOf member).1
  | align axis alignment =>
      cases h
      cases alignment with
      | start =>
          intro position member
          obtain ⟨child, _, rfl⟩ := List.mem_map.mp member
          exact ⟨axis, child, rfl⟩
      | finish => exact fun span member => (mem_map_spanOf member).1
      | center =>
          rcases alignOperator_center (α := α) axis children with
            mean | ⟨others, last, rfl, rfl, anchored⟩
          · rw [mean]
            exact fun span member => (mem_map_spanOf member).1
          · rw [anchored]
            intro span member
            rw [← List.map_cons] at member
            exact (mem_map_spanOf member).1
  | background padding style =>
      cases children with
      | nil => cases h
      | cons child rest =>
          cases h
          intro base member
          rcases List.mem_cons.mp member with rfl | member
          · exact ⟨child, rfl⟩
          · exact ⟨rank, List.mem_singleton.mp member⟩
  | _ => cases h

/-- Its entries are distinct if those of the node are. -/
theorem distinctEntries_of_operator? (h : shape.operator? rank children = some operator)
    (distinct : (rank :: children).Nodup) : operator.DistinctEntries := by
  obtain ⟨absent, distinct'⟩ := List.nodup_cons.mp distinct
  have spans : ∀ axis, (children.map (spanOf axis)).Nodup := fun axis =>
    distinct'.map (spanOf_injective axis)
  cases shape with
  | stack axis spacing alignment =>
      cases h
      exact distinct.map baseOf_injective
  | distribute axis spacing =>
      cases h
      exact spans axis
  | align axis alignment =>
      cases h
      cases alignment with
      | start =>
          apply distinct'.map
          intro first second same
          exact baseOf_injective (Nat.add_right_cancel same)
      | finish => exact spans axis
      | center =>
          rcases alignOperator_center (α := α) axis children with
            mean | ⟨others, last, rfl, rfl, anchored⟩
          · rw [mean]
            exact spans axis
          · rw [anchored]
            have reordered : (last :: others).Nodup :=
              (List.perm_append_singleton last others).nodup_iff.mp distinct'
            exact reordered.map (spanOf_injective .x)
  | background padding style =>
      cases children with
      | nil => cases h
      | cons child rest =>
          cases h
          intro same
          exact absent (baseOf_injective same ▸ List.mem_cons_self)
  | _ => cases h

/-- It reads and writes slots of the node and of its children only. -/
theorem owner_mem_of_operator? (h : shape.operator? rank children = some operator) {slot : Nat}
    (used : slot ∈ operator.reads ∨ slot ∈ operator.slots) :
    slot / slotsPerEntity ∈ rank :: children := by
  have inSpans : ∀ {axis : Axis} {ranks : List Nat}, ranks ⊆ children →
      slot ∈ Operator.reads.both.{u} (ranks.map (spanOf axis)) ∨
        slot ∈ (ranks.map (spanOf axis)).map Span.position →
      slot / slotsPerEntity ∈ rank :: children := by
    intro axis ranks among used
    rcases used with read | own
    · obtain ⟨span, member, rfl | rfl⟩ := Operator.mem_both.mp read
      · exact List.mem_cons_of_mem _ (among (mem_map_spanOf member).2.1)
      · exact List.mem_cons_of_mem _ (among (mem_map_spanOf member).2.2)
    · obtain ⟨span, member, rfl⟩ := List.mem_map.mp own
      exact List.mem_cons_of_mem _ (among (mem_map_spanOf member).2.1)
  have ofBase : (∃ base ∈ baseOf rank :: children.map baseOf, ∃ offset < 4,
      slot = base + offset) → slot / slotsPerEntity ∈ rank :: children := by
    rintro ⟨base, member, offset, small, rfl⟩
    rw [← List.map_cons] at member
    obtain ⟨owner, listed, rfl⟩ := List.mem_map.mp member
    rwa [baseOf_add_div owner small]
  have near : ∀ {axis : Axis}, slot ∈ children.map (fun rank => baseOf rank + axis.position) →
      slot / slotsPerEntity ∈ rank :: children := by
    intro axis listed
    obtain ⟨child, member, rfl⟩ := List.mem_map.mp listed
    rw [baseOf_add_div child axis.position_lt]
    exact List.mem_cons_of_mem _ member
  cases shape with
  | stack axis spacing alignment =>
      cases h
      have based : ∃ base ∈ baseOf rank :: children.map baseOf, ∃ offset < 4,
          slot = base + offset := by
        rcases used with read | own
        · rcases Operator.mem_reads_stack.mp read with rfl | ⟨base, member, rfl | rfl⟩
          · exact ⟨_, List.mem_cons_self, _, axis.cross.extent_lt, rfl⟩
          · exact ⟨base, List.mem_cons_of_mem _ member, _, axis.extent_lt, rfl⟩
          · exact ⟨base, List.mem_cons_of_mem _ member, _, axis.cross.extent_lt, rfl⟩
        · rcases Operator.mem_slots_stack.mp own with ⟨base, member, rfl | rfl⟩ | rfl | rfl
          · exact ⟨base, List.mem_cons_of_mem _ member, _, axis.position_lt, rfl⟩
          · exact ⟨base, List.mem_cons_of_mem _ member, _, axis.cross.position_lt, rfl⟩
          · exact ⟨_, List.mem_cons_self, _, axis.extent_lt, rfl⟩
          · exact ⟨_, List.mem_cons_self, _, axis.cross.extent_lt, rfl⟩
      exact ofBase based
  | distribute axis spacing =>
      cases h
      exact inSpans (List.Subset.refl _) used
  | align axis alignment =>
      cases h
      cases alignment with
      | start => exact used.elim near near
      | finish => exact inSpans (List.Subset.refl _) used
      | center =>
          rcases alignOperator_center (α := α) axis children with
            mean | ⟨others, last, rfl, rfl, anchored⟩
          · rw [mean] at used
            exact inSpans (List.Subset.refl _) used
          · rw [anchored] at used
            have among : last :: others ⊆ others ++ [last] :=
              (List.perm_append_singleton last others).symm.subset
            have listed : slot ∈ Operator.reads.both.{u} ((last :: others).map (spanOf .x)) ∨
                slot ∈ ((last :: others).map (spanOf .x)).map Span.position :=
              used.imp_right fun own => List.mem_cons_of_mem _ own
            exact inSpans among listed
  | background padding style =>
      cases children with
      | nil => cases h
      | cons child rest =>
          cases h
          rcases used with read | own
          · exact ofBase ⟨baseOf child, by simp, Operator.mem_four.mp read⟩
          · exact ofBase ⟨baseOf rank, by simp, Operator.mem_four.mp own⟩
  | _ => cases h

/-- A box belongs to the node itself. -/
theorem owner_eq_of_isBackground (h : shape.operator? rank children = some operator)
    (box : operator.IsBackground) {slot : Nat} (own : slot ∈ operator.slots) :
    slot / slotsPerEntity = rank := by
  cases shape with
  | background padding style =>
      cases children with
      | nil => cases h
      | cons child rest =>
          cases h
          obtain ⟨offset, small, rfl⟩ := Operator.mem_four.mp own
          exact baseOf_add_div rank small
  | align axis alignment =>
      cases h
      cases alignment with
      | center =>
          rcases alignOperator_center (α := α) axis children with mean | ⟨_, _, _, _, anchored⟩
          · rw [mean] at box
            cases box
          · rw [anchored] at box
            cases box
      | _ => cases box
  | stack axis spacing alignment =>
      cases h
      cases box
  | distribute axis spacing =>
      cases h
      cases box
  | _ => cases h

/-- Inside the buffer of a scene that holds the node and its children no slot is missing. -/
theorem inside_of_operator? (h : shape.operator? rank children = some operator) {count : Nat}
    (present : ∀ owner ∈ rank :: children, owner < count) :
    operator.Inside (slotsPerEntity * count) := by
  intro slot used
  have owner := present _ (owner_mem_of_operator? h used)
  rw [Nat.div_lt_iff_lt_mul (by decide)] at owner
  rwa [Nat.mul_comm]

end Shape

end SceneLayout
