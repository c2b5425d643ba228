import SceneLayout.Proofs.Boxes
import SceneLayout.Proofs.Ranks

/-!
# What a layout moves

An operator writes the positions of the children that its node places, and the box or the
extents of the node itself. All other numbers of a scene are those of its records, however
long it is relaxed and in whatever arithmetic.

## Implementation notes

The last of several children whose centers are aligned along the first axis is the anchor of
the others. It is not moved, unless it stands among the others too.

Main statement: `solve_keeps_what_no_node_owns`.
-/

namespace SceneLayout

universe u v

variable {α : Type u} {β : Type v}

namespace Shape

/-- The shape gives its own node a position: only a background with a child does. -/
def SetsPosition (children : List β) : Shape α → Prop
  | background .. => children ≠ []
  | _ => False

/-- The shape gives its own node extents: a stack does, and a background with a child. -/
def SetsExtents (children : List β) : Shape α → Prop
  | stack .. => True
  | background .. => children ≠ []
  | _ => False

/-- The children that the shape gives positions along an axis: those of a stack, and those of an
alignment or a distribution along the axis, but for the last one of several whose centers are
aligned along the first axis. -/
def placed (along : Axis) (children : List β) : Shape α → List β
  | stack .. => children
  | align axis alignment =>
      if axis = along then
        if axis = .x ∧ alignment = .center ∧ 2 ≤ children.length then children.dropLast
        else children
      else []
  | distribute axis _ => if axis = along then children else []
  | _ => []

example : (align .x .center : Shape α).placed .x ["a", "b", "column"] = ["a", "b"] := rfl

theorem setsPosition_map {γ : Type*} {f : β → γ} {children : List β} {shape : Shape α} :
    shape.SetsPosition (children.map f) ↔ shape.SetsPosition children := by
  cases shape with
  | background => exact List.map_eq_nil_iff.not
  | _ => exact Iff.rfl

theorem setsExtents_map {γ : Type*} {f : β → γ} {children : List β} {shape : Shape α} :
    shape.SetsExtents (children.map f) ↔ shape.SetsExtents children := by
  cases shape with
  | background => exact List.map_eq_nil_iff.not
  | _ => exact Iff.rfl

theorem placed_map {γ : Type*} (f : β → γ) (along : Axis) (children : List β) (shape : Shape α) :
    shape.placed along (children.map f) = (shape.placed along children).map f := by
  cases shape with
  | align axis alignment =>
      simp only [placed, List.length_map]
      split_ifs <;> simp [List.map_dropLast]
  | distribute axis spacing =>
      simp only [placed]
      split_ifs <;> rfl
  | _ => rfl

theorem placed_subset (along : Axis) (children : List β) (shape : Shape α) :
    shape.placed along children ⊆ children := by
  cases shape with
  | stack => exact List.Subset.refl children
  | align axis alignment =>
      simp only [placed]
      split_ifs
      · exact List.dropLast_subset children
      · exact List.Subset.refl children
      · exact List.nil_subset children
  | distribute axis spacing =>
      simp only [placed]
      split_ifs
      · exact List.Subset.refl children
      · exact List.nil_subset children
  | _ => exact List.nil_subset children

end Shape

/-! ## Slots of an operator -/

theorem eq_of_position_eq {first second : Nat} {axis along : Axis}
    (h : 4 * first + axis.position = 4 * second + along.position) :
    first = second ∧ axis = along := by
  cases axis <;> cases along <;> simp only [Axis.position] at h <;>
    simp only [reduceCtorEq, and_true, and_false] <;> omega

theorem position_ne_extent {first second : Nat} {axis along : Axis} :
    4 * first + axis.position ≠ 4 * second + along.extent := by
  cases axis <;> cases along <;> simp only [Axis.position, Axis.extent] <;> omega

namespace Shape.Lays

variable {shape : Shape α} {rank owner : Nat} {children : List Nat} {operator : Operator α}

theorem eq_of_mem_positions {axis along : Axis} {ranks : List Nat}
    (h : 4 * owner + along.position ∈ ranks.map fun child => 4 * child + axis.position) :
    axis = along ∧ owner ∈ ranks := by
  obtain ⟨child, member, same⟩ := List.mem_map.mp h
  obtain ⟨rfl, direction⟩ := eq_of_position_eq same
  exact ⟨direction, member⟩

theorem extent_not_mem_positions {axis along : Axis} {ranks : List Nat} :
    4 * owner + along.extent ∉ ranks.map fun child => 4 * child + axis.position := by
  intro h
  obtain ⟨child, _, same⟩ := List.mem_map.mp h
  exact position_ne_extent same

/-- An operator positions children that its node places, or else its own box. -/
theorem mem_placed_or (laid : shape.Lays rank children operator) {along : Axis}
    (own : 4 * owner + along.position ∈ operator.slots) :
    owner ∈ shape.placed along children ∨ shape.SetsPosition children ∧ owner = rank := by
  cases laid with
  | stack axis spacing alignment =>
      left
      rcases Operator.mem_slots_stack.mp own with ⟨base, member, same⟩ | same | same
      · obtain ⟨child, inRanks, rfl⟩ := List.mem_map.mp member
        rcases same with same | same
        · exact (eq_of_position_eq same).1 ▸ inRanks
        · exact (eq_of_position_eq same).1 ▸ inRanks
      · exact absurd same position_ne_extent
      · exact absurd same position_ne_extent
  | near axis =>
      left
      obtain ⟨rfl, member⟩ := eq_of_mem_positions own
      simpa [placed] using member
  | far axis =>
      left
      rw [Operator.slots, List.map_map] at own
      obtain ⟨rfl, member⟩ := eq_of_mem_positions own
      simpa [placed] using member
  | mean axis free =>
      left
      rw [Operator.slots, List.map_map] at own
      obtain ⟨rfl, member⟩ := eq_of_mem_positions own
      -- This operator is used only where no child is the anchor of the others.
      have all : ¬(axis = .x ∧ 2 ≤ children.length) := by
        rintro ⟨rfl, several⟩
        rcases free with other | few
        · cases other
        · omega
      simpa only [placed, if_true, true_and, all, if_false] using member
  | @anchored others last split several =>
      left
      subst split
      rw [Operator.slots, List.map_map] at own
      have own : _ ∈ List.map (fun child => 4 * child + Axis.x.position) others := own
      obtain ⟨rfl, member⟩ := eq_of_mem_positions own
      have two : 2 ≤ (others ++ [last]).length := by
        have one := List.length_pos_of_ne_nil several
        rw [List.length_append, List.length_singleton]
        omega
      simpa only [placed, if_true, true_and, two, List.dropLast_concat] using member
  | distribute axis spacing =>
      left
      rw [Operator.slots, List.map_map] at own
      obtain ⟨rfl, member⟩ := eq_of_mem_positions own
      simpa only [placed, if_true] using member
  | background padding style first =>
      right
      obtain ⟨offset, small, same⟩ := Operator.mem_four.mp own
      have inside := along.position_lt
      refine ⟨?_, by omega⟩
      rintro rfl
      cases first

/-- An operator sets the extents of its own node only. -/
theorem setsExtents_and_eq (laid : shape.Lays rank children operator) {along : Axis}
    (own : 4 * owner + along.extent ∈ operator.slots) :
    shape.SetsExtents children ∧ owner = rank := by
  cases laid with
  | stack axis spacing alignment =>
      refine ⟨trivial, ?_⟩
      rcases Operator.mem_slots_stack.mp own with ⟨base, member, same⟩ | same | same
      · obtain ⟨child, inRanks, rfl⟩ := List.mem_map.mp member
        rcases same with same | same
        · exact absurd same.symm position_ne_extent
        · exact absurd same.symm position_ne_extent
      · have small := along.extent_lt
        have small' := axis.extent_lt
        omega
      · have small := along.extent_lt
        have small' := axis.cross.extent_lt
        omega
  | near axis => exact absurd own extent_not_mem_positions
  | far axis | mean axis | distribute axis =>
      rw [Operator.slots, List.map_map] at own
      exact absurd own extent_not_mem_positions
  | @anchored others =>
      rw [Operator.slots, List.map_map] at own
      have own : _ ∈ List.map (fun child => 4 * child + Axis.x.position) others := own
      exact absurd own extent_not_mem_positions
  | background padding style first =>
      obtain ⟨offset, small, same⟩ := Operator.mem_four.mp own
      have inside := along.extent_lt
      refine ⟨?_, by omega⟩
      rintro rfl
      cases first

end Shape.Lays

/-! ## Nodes of a tree -/

namespace NamedTree

/-- Some node of the tree places the node of a name along the axis. -/
def Moves (tree : NamedTree α) (along : Axis) (name : String) : Prop :=
  ∃ node ∈ tree.preorder, name ∈ node.shape.placed along node.children

variable {tree : NamedTree α}

/-- A node stands at the rank of its name. -/
theorem WellNamed.getElem?_idxOf (named : tree.WellNamed) {node : NamedNode α}
    (member : node ∈ tree.preorder) : tree.preorder[tree.names.idxOf node.name]? = some node := by
  obtain ⟨rank, inside, rfl⟩ := List.mem_iff_getElem.mp member
  have inNames : rank < tree.names.length := by rwa [names, List.length_map]
  have here : tree.names[rank] = tree.preorder[rank].name := List.getElem_map ..
  rw [← here, named.distinct.idxOf_getElem rank inNames]
  exact List.getElem?_eq_getElem inside

theorem WellNamed.eq_of_idxOf_eq (named : tree.WellNamed) {node other : NamedNode α}
    (member : node ∈ tree.preorder) (member' : other ∈ tree.preorder)
    (same : tree.names.idxOf node.name = tree.names.idxOf other.name) : node = other := by
  have found := named.getElem?_idxOf member
  rw [same, named.getElem?_idxOf member'] at found
  exact (Option.some.inj found).symm

variable [Scalar α]

/-- No operator positions a node that no node places and that does not position itself. -/
theorem position_not_mem_slots (named : tree.WellNamed) {node : NamedNode α}
    (member : node ∈ tree.preorder) (bare : ¬node.shape.SetsPosition node.children) {along : Axis}
    (free : ¬tree.Moves along node.name) :
    ∀ operator ∈ tree.scene.operators,
      baseOf (tree.names.idxOf node.name) + along.position ∉ operator.slots := by
  intro operator listed own
  obtain ⟨other, inTree, built⟩ := mem_operators_scene.mp listed
  rcases (Shape.lays_of_operator? built).mem_placed_or own with child | ⟨sets, same⟩
  · rw [Shape.placed_map] at child
    obtain ⟨name, placed, same⟩ := List.mem_map.mp child
    have denoted := other.shape.placed_subset along other.children placed
    have known := named.mem_names inTree name (List.mem_cons_of_mem _ denoted)
    rw [List.idxOf_inj known] at same
    exact free ⟨other, inTree, same ▸ placed⟩
  · cases named.eq_of_idxOf_eq member inTree same
    exact bare (Shape.setsPosition_map.mp sets)

/-- No operator sets the extents of a node that does not set its own. -/
theorem extent_not_mem_slots (named : tree.WellNamed) {node : NamedNode α}
    (member : node ∈ tree.preorder) (bare : ¬node.shape.SetsExtents node.children) (along : Axis) :
    ∀ operator ∈ tree.scene.operators,
      baseOf (tree.names.idxOf node.name) + along.extent ∉ operator.slots := by
  intro operator listed own
  obtain ⟨other, inTree, built⟩ := mem_operators_scene.mp listed
  obtain ⟨sets, same⟩ := (Shape.lays_of_operator? built).setsExtents_and_eq own
  cases named.eq_of_idxOf_eq member inTree same
  exact bare (Shape.setsExtents_map.mp sets)

end NamedTree

/-- The layout has kept what no node of the tree owns: the extents of a record whose node does not
set them itself, and its position along each axis on which no node places it and it does not place
itself. -/
structure NamedTree.KeepsUnowned (tree : NamedTree α) (layout : Layout α) (node : NamedNode α)
    (record : Record α) : Prop where
  id : record.id = node.name
  found : ∃ box, Entries.find? layout node.name = some box ∧
    (¬node.shape.SetsExtents node.children →
      box.width = record.width ∧ box.height = record.height) ∧
    ∀ along, ¬node.shape.SetsPosition node.children → ¬tree.Moves along node.name →
      box.position along = record.box.position along

section Solved

variable [Scalar α]

/-- Every tree with a scene is laid out, and whether or not the relaxation has settled, each record
keeps the extents that its node does not set, and the position along each axis on which no node
gives it one. -/
theorem solve_keeps_what_no_node_owns {tree : Tree α} {scene : Scene α}
    (compiled : tree.compile = .ok scene) (settings : Settings α) :
    ∃ named solution, tree.named .top [] = .ok named ∧ scene.solve settings = .ok solution ∧
      List.Forall₂ (named.KeepsUnowned solution.layout) named.preorder scene.records := by
  obtain ⟨named, naming, well, rfl⟩ := Tree.exists_named_of_compile compiled
  have distinct : named.scene.ids.Nodup := by
    rw [NamedTree.ids_scene]
    exact well.distinct
  obtain ⟨count, solved, -⟩ := Scene.solve_eq_ok distinct (NamedTree.inside_scene well) settings
  set declared := (Scene.initial named.scene.records).numbers
  set numbers := Relaxation.afterPasses settings.damping named.scene.operators declared count
  have unmoved : ∀ slot, (∀ operator ∈ named.scene.operators, slot ∉ operator.slots) →
      numbers slot = declared slot := by
    intro slot free
    exact Relaxation.afterPasses_of_not_mem free settings.damping declared count
  have kept : ∀ node ∈ named.preorder,
      named.KeepsUnowned (layoutOf named.scene.ids numbers) node node.record := by
    intro node member
    have known : node.name ∈ named.names := List.mem_map_of_mem member
    have found : Entries.find? (layoutOf named.scene.ids numbers) node.name =
        some (boxAt numbers (baseOf (named.names.idxOf node.name))) := by
      rw [NamedTree.ids_scene]
      exact find?_layoutOf well.distinct numbers known
    have atRank : named.scene.records[named.names.idxOf node.name]? = some node.record := by
      rw [NamedTree.scene, List.getElem?_map, well.getElem?_idxOf member]
      rfl
    have box := boxAt_initial atRank
    refine ⟨node.id_record, _, found, ?_, ?_⟩
    · intro bare
      have extents : ∀ along, (boxAt numbers (baseOf (named.names.idxOf node.name))).extent along =
          node.record.box.extent along := by
        intro along
        rw [extent_boxAt, unmoved _ (NamedTree.extent_not_mem_slots well member bare along),
          ← extent_boxAt declared, box]
      exact ⟨extents .x, extents .y⟩
    · intro along bare free
      rw [position_boxAt, unmoved _ (NamedTree.position_not_mem_slots well member bare free),
        ← position_boxAt declared, box]
  refine ⟨named, _, naming, solved, ?_⟩
  exact List.forall₂_map_right_iff.mpr (List.forall₂_same.mpr kept)

end Solved

/-- After a single damped pass the column, which anchors the others along the first axis, still
stands where it was declared, and the rectangles have their declared sizes. -/
theorem solve_keeps_alignedColumn :
    ∃ scene named solution, alignedColumn.compile = .ok scene ∧
      alignedColumn.named .top [] = .ok named ∧ scene.solve ⟨1, 0, 1 / 2⟩ = .ok solution ∧
      List.Forall₂ (named.KeepsUnowned solution.layout) named.preorder scene.records := by
  obtain ⟨scene, compiled⟩ : ∃ scene, alignedColumn.compile = .ok scene := ⟨_, rfl⟩
  obtain ⟨named, solution, naming, solved, kept⟩ :=
    solve_keeps_what_no_node_owns compiled ⟨1, 0, 1 / 2⟩
  exact ⟨scene, named, solution, compiled, naming, solved, kept⟩

end SceneLayout
