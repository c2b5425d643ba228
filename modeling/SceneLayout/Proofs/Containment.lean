import SceneLayout.Proofs.Declared
import SceneLayout.Proofs.Extents
import SceneLayout.Proofs.Ownership

/-!
# Stacks and their children

A stack puts its children from zero on, not from its own position on. So at rest each child
lies in the box of the stack moved to the origin, and in the box of the stack itself along
an axis on which no other node has given the stack a position.

Main statement: `children_lie_in_stack`.
-/

namespace SceneLayout

open Scalar

namespace Box

/-- Along the axis the box lies in another one. -/
def LiesIn (box outer : Box ℚ) (axis : Axis) : Prop :=
  outer.position axis ≤ box.position axis ∧ box.finish axis ≤ outer.finish axis

/-- The box moved to the origin. -/
def atOrigin (box : Box ℚ) : Box ℚ := ⟨0, 0, box.width, box.height⟩

@[simp] theorem position_atOrigin (box : Box ℚ) (axis : Axis) : box.atOrigin.position axis = 0 := by
  cases axis <;> rfl

@[simp] theorem finish_atOrigin (box : Box ℚ) (axis : Axis) :
    box.atOrigin.finish axis = box.extent axis := by
  cases axis <;> exact zero_add _

theorem LiesIn.of_position_eq_zero {box outer : Box ℚ} {axis : Axis}
    (h : box.LiesIn outer.atOrigin axis) (zero : outer.position axis = 0) :
    box.LiesIn outer axis := by
  have same : outer.finish axis = outer.extent axis := by rw [finish, zero, zero_add]
  rw [LiesIn, position_atOrigin, finish_atOrigin] at h
  rwa [LiesIn, zero, same]

end Box

/-- The greatest of some numbers and a first one is at least each of them. -/
theorem le_foldl_max {items : List ℚ} {item : ℚ} (first : ℚ) (h : item ∈ items) :
    item ≤ items.foldl max first :=
  (List.max?_eq_some_iff.mp List.max?_cons').2 item (List.mem_cons_of_mem first h)

theorem Alignment.share_mem (alignment : Alignment) :
    0 ≤ alignment.share ∧ alignment.share ≤ 1 := by
  cases alignment <;> norm_num [share]

namespace Box.Stacked

variable {axis : Axis} {spacing : ℚ} {alignment : Alignment} {container : Box ℚ}
  {children : List (Box ℚ)}

/-- Along a stack boxes begin and end in the order of the children. -/
theorem ordered (stacked : Stacked axis spacing alignment container children) (gap : 0 ≤ spacing)
    (nonneg : ∀ child ∈ children, 0 ≤ child.extent axis) :
    children.Pairwise fun a b =>
      a.position axis ≤ b.position axis ∧ a.finish axis ≤ b.finish axis := by
  have transitive : IsTrans (Box ℚ) fun a b =>
      a.position axis ≤ b.position axis ∧ a.finish axis ≤ b.finish axis :=
    ⟨fun a b c first second => ⟨first.1.trans second.1, first.2.trans second.2⟩⟩
  rw [← List.isChain_iff_pairwise]
  apply stacked.next.imp_of_mem_imp
  intro a b inA inB next
  have extentA := nonneg a inA
  have extentB := nonneg b inB
  simp only [finish] at next ⊢
  constructor <;> linarith

/-- The children of a stack lie in the box that has the size of the stack and is at the origin. -/
theorem liesIn_atOrigin (stacked : Stacked axis spacing alignment container children)
    (gap : 0 ≤ spacing) (nonneg : ∀ child ∈ children, ∀ direction, 0 ≤ child.extent direction)
    {child : Box ℚ} (member : child ∈ children) (direction : Axis) :
    child.LiesIn container.atOrigin direction := by
  have along : child.LiesIn container.atOrigin axis := by
    have order := stacked.ordered gap fun child member => nonneg child member axis
    rw [LiesIn, position_atOrigin, finish_atOrigin, stacked.extent]
    constructor
    · obtain ⟨before, after, rfl⟩ := List.append_of_mem member
      cases before with
      | nil => exact (stacked.first child rfl).ge
      | cons first rest =>
          rw [← stacked.first first rfl]
          exact ((List.pairwise_append.mp order).2.2 first List.mem_cons_self child
            List.mem_cons_self).1
    · obtain ⟨before, after, rfl⟩ := List.append_of_mem member
      rw [List.getLast?_append_cons]
      rcases List.eq_nil_or_concat' after with rfl | ⟨between, last, rfl⟩
      · exact le_rfl
      · rw [← List.cons_append, List.getLast?_concat]
        have follows := (List.pairwise_cons.mp (List.pairwise_append.mp order).2.1).1
        exact (follows last (by simp)).2
  have across : child.LiesIn container.atOrigin axis.cross := by
    rw [LiesIn, position_atOrigin, finish_atOrigin, finish, stacked.aligned child member]
    have room : child.extent axis.cross ≤ container.extent axis.cross := by
      rw [stacked.across]
      exact le_foldl_max 0 (List.mem_map_of_mem member)
    obtain ⟨low, high⟩ := alignment.share_mem
    constructor
    · exact mul_nonneg low (sub_nonneg.mpr room)
    · have rest := mul_le_mul_of_nonneg_right high (sub_nonneg.mpr room)
      linarith
  cases axis <;> cases direction <;> assumption

end Box.Stacked

/-! ## Extents of laid out boxes -/

theorem extentsNonneg_initial {records : List (Record ℚ)}
    (sizes : ∀ record ∈ records, 0 ≤ record.width ∧ 0 ≤ record.height) :
    ExtentsNonneg (Scene.initial records).numbers := by
  intro slot extent
  obtain ⟨axis, atSlot⟩ : ∃ axis : Axis, slot = baseOf (slot / 4) + axis.extent := by
    simp only [IsExtent, slotsPerEntity] at extent
    have offset : slot % 4 = 2 ∨ slot % 4 = 3 := by omega
    rcases offset with two | three
    · exact ⟨.x, by simp only [baseOf, slotsPerEntity, Axis.extent]; omega⟩
    · exact ⟨.y, by simp only [baseOf, slotsPerEntity, Axis.extent]; omega⟩
  cases found : records[slot / 4]? with
  | none =>
      have outside : (Scene.initial records).size ≤ slot := by
        rw [List.getElem?_eq_none_iff] at found
        rw [Scene.size_initial, slotsPerEntity]
        omega
      rw [Buffer.numbers, Array.getD_eq_getD_getElem?, Array.getElem?_eq_none outside]
      simp
  | some record =>
      rw [atSlot, ← extent_boxAt (Scene.initial records).numbers, boxAt_initial found]
      have size := sizes record (List.mem_of_getElem? found)
      cases axis with
      | x => exact size.1
      | y => exact size.2

theorem extent_boxOf_nonneg {numbers : Nat → ℚ} (nonneg : ExtentsNonneg numbers) (rank : Nat)
    (axis : Axis) : 0 ≤ (boxOf numbers rank).extent axis := by
  rw [boxOf, extent_boxAt]
  exact nonneg _ (isExtent_base (baseOf_mod rank) axis)

/-! ## Positions that no node gives -/

namespace Shape

/-- The gap that the shape keeps, between children or around a child, is not negative. -/
def GapNonneg : Shape ℚ → Prop
  | stack _ spacing _ => 0 ≤ spacing
  | background padding _ => 0 ≤ padding
  | _ => True

/-- The shape does something with its children. -/
def Arranges {α : Type*} : Shape α → Prop
  | stack .. | align .. | distribute .. | background .. => True
  | _ => False

theorem gapNonneg_of_operator? {shape : Shape ℚ} {rank : Nat} {children : List Nat}
    {operator : Operator ℚ} (h : shape.operator? rank children = some operator)
    (gap : shape.GapNonneg) : operator.GapNonneg := by
  cases shape with
  | stack axis spacing alignment =>
      cases h
      exact gap
  | distribute axis spacing =>
      cases h
      trivial
  | align axis alignment =>
      cases h
      cases alignment with
      | center =>
          rcases alignOperator_center (α := ℚ) axis children with mean | ⟨_, _, _, _, anchored⟩
          · rw [mean]
            trivial
          · rw [anchored]
            trivial
      | _ => trivial
  | background padding style =>
      obtain ⟨child, _, rfl⟩ := Option.map_eq_some_iff.mp h
      exact gap
  | _ => cases h

theorem arranges_of_operator? {α : Type*} {shape : Shape α} {rank : Nat} {children : List Nat}
    {operator : Operator α} (h : shape.operator? rank children = some operator) :
    shape.Arranges := by
  cases shape with
  | stack | align | distribute | background => trivial
  | _ => cases h

end Shape

/-- The shape gives its children their positions along the axis. -/
def Shape.Places {α : Type*} (along : Axis) : Shape α → Prop
  | stack .. => True
  | align axis _ => axis = along
  | distribute axis _ => axis = along
  | _ => False

theorem Shape.places_of_mem_placed {α β : Type*} {shape : Shape α} {along : Axis}
    {children : List β} {child : β} (h : child ∈ shape.placed along children) :
    shape.Places along := by
  cases shape with
  | stack => trivial
  | align axis alignment =>
      by_contra other
      simp [placed, show axis ≠ along from other] at h
  | distribute axis spacing =>
      by_contra other
      simp [placed, show axis ≠ along from other] at h
  | _ => cases h

namespace NamedTree

/-- Some node of the tree gives the node of a name its position along the axis. -/
def PlacesAlong {α : Type*} (tree : NamedTree α) (along : Axis) (name : String) : Prop :=
  ∃ node ∈ tree.preorder, node.shape.Places along ∧ name ∈ node.children

theorem Moves.placesAlong {α : Type*} {tree : NamedTree α} {along : Axis} {name : String}
    (moves : tree.Moves along name) : tree.PlacesAlong along name := by
  obtain ⟨node, member, placed⟩ := moves
  exact ⟨node, member, Shape.places_of_mem_placed placed,
    node.shape.placed_subset along node.children placed⟩

end NamedTree

/-! ## Scenes at rest -/

namespace NamedTree

variable {tree : NamedTree ℚ}

/-- The numbers of a compiled scene after some passes. -/
def numbersAfter (tree : NamedTree ℚ) (damping : ℚ) (count : Nat) : Nat → ℚ :=
  Relaxation.afterPasses damping tree.scene.operators (Scene.initial tree.scene.records).numbers
    count

/-- A compiled scene is laid out by its numbers after some passes. If the last of them has left no
change to be made, every operator rests at these numbers. -/
theorem solve_eq_ok (well : tree.WellNamed) (settings : Settings ℚ) :
    ∃ solution count, tree.scene.solve settings = .ok solution ∧
      (∀ name ∈ tree.names, Entries.find? solution.layout name =
        some (boxOf (tree.numbersAfter settings.damping count) (tree.names.idxOf name))) ∧
      (solution.stats.residual = some 0 → ∀ operator ∈ tree.scene.operators,
        operator.target (tree.numbersAfter settings.damping count) =
          tree.numbersAfter settings.damping count) := by
  have distinct : tree.scene.ids.Nodup := by
    rw [ids_scene]
    exact well.distinct
  obtain ⟨count, solved, -⟩ := Scene.solve_eq_ok distinct (inside_scene well) settings
  refine ⟨_, count, solved, ?_, ?_⟩
  · intro name known
    rw [ids_scene]
    exact find?_layoutOf well.distinct _ known
  · intro zero
    exact Relaxation.target_afterPasses_of_residualAfter_eq_zero zero

/-- No node that arranges others is among its children or has one of them twice. -/
def Apart (tree : NamedTree ℚ) : Prop :=
  ∀ node ∈ tree.preorder, node.shape.Arranges → (node.name :: node.children).Nodup

theorem distinctEntries_scene (well : tree.WellNamed) (apart : tree.Apart) :
    ∀ operator ∈ tree.scene.operators, operator.DistinctEntries := by
  intro operator listed
  obtain ⟨node, member, built⟩ := mem_operators_scene.mp listed
  have nodup := apart node member (Shape.arranges_of_operator? built)
  exact Shape.distinctEntries_of_operator? built (nodup_ranks well member nodup)

variable {damping : ℚ} {count : Nat}

theorem extentsNonneg_at_rest (well : tree.WellNamed) (apart : tree.Apart)
    (sizes : ∀ record ∈ tree.scene.records, 0 ≤ record.width ∧ 0 ≤ record.height)
    (gaps : ∀ node ∈ tree.preorder, node.shape.GapNonneg)
    (rests : ∀ operator ∈ tree.scene.operators,
      operator.target (tree.numbersAfter damping count) = tree.numbersAfter damping count) :
    ExtentsNonneg (tree.numbersAfter damping count) := by
  apply Relaxation.extentsNonneg_of_rests onEntities_scene (distinctEntries_scene well apart) _
    (extentsNonneg_initial sizes) rests
  intro operator listed
  obtain ⟨node, member, built⟩ := mem_operators_scene.mp listed
  exact Shape.gapNonneg_of_operator? built (gaps node member)

variable {node : NamedNode ℚ} {axis : Axis} {spacing : ℚ} {alignment : Alignment}

/-- A stack that no node gives a position along an axis stands at zero. -/
theorem position_stack_eq_zero (well : tree.WellNamed) (member : node ∈ tree.preorder)
    (isStack : node.shape = .stack axis spacing alignment) {along : Axis}
    (free : ¬tree.PlacesAlong along node.name) :
    (boxOf (tree.numbersAfter damping count) (tree.names.idxOf node.name)).position along = 0 := by
  have bare : ¬node.shape.SetsPosition node.children := by
    rw [isStack]
    exact not_false
  have record : tree.scene.records[tree.names.idxOf node.name]? =
      some (Record.empty node.name .none) := by
    rw [scene, List.getElem?_map, well.getElem?_idxOf member, Option.map_some, NamedNode.record,
      isStack]
    rfl
  have unmoved := position_not_mem_slots well member bare fun moves => free moves.placesAlong
  rw [boxOf, position_boxAt, numbersAfter, Relaxation.afterPasses_of_not_mem unmoved,
    ← position_boxAt (Scene.initial tree.scene.records).numbers, boxAt_initial record]
  cases along <;> exact Nat.cast_zero

/-- At rest the children of a stack stand as it declares. -/
theorem stacked_at_rest (well : tree.WellNamed) (apart : tree.Apart)
    (member : node ∈ tree.preorder) (isStack : node.shape = .stack axis spacing alignment)
    (rests : ∀ operator ∈ tree.scene.operators,
      operator.target (tree.numbersAfter damping count) = tree.numbersAfter damping count) :
    Box.Stacked axis spacing alignment
      (boxOf (tree.numbersAfter damping count) (tree.names.idxOf node.name))
      ((node.children.map tree.names.idxOf).map (boxOf (tree.numbersAfter damping count))) := by
  apply stacked_of_restsAt
  have listed : Operator.stack axis ((node.children.map tree.names.idxOf).map baseOf)
      (baseOf (tree.names.idxOf node.name)) spacing alignment ∈ tree.scene.operators := by
    refine mem_operators_scene.mpr ⟨node, member, ?_⟩
    rw [NamedNode.operator?, isStack]
    rfl
  exact Operator.restsAt_of_target_eq (onEntities_scene _ listed)
    (distinctEntries_scene well apart _ listed) (rests _ listed)

end NamedTree

/-- Naming keeps the shapes. -/
theorem Tree.exists_shape_of_named {tree : Tree ℚ} {named : NamedTree ℚ}
    (naming : tree.named .top [] = .ok named) {node : NamedNode ℚ}
    (member : node ∈ named.preorder) : ∃ original ∈ tree.nodes, original.shape = node.shape := by
  have same : List.Forall₂ (fun a b => a.shape = b.shape) tree.nodes named.preorder :=
    (nodes_named naming).imp fun _ _ becomes => becomes.shape.symm
  have shapes : tree.nodes.map TreeNode.shape = named.preorder.map NamedNode.shape := by
    rwa [← List.forall₂_eq_eq_eq, List.forall₂_map_left_iff, List.forall₂_map_right_iff]
  have listed : node.shape ∈ named.preorder.map NamedNode.shape := List.mem_map_of_mem member
  rw [← shapes] at listed
  exact List.mem_map.mp listed

/-- If the last pass has left no change to be made, no node is twice among the children of another
one or among its own, and no size or gap is negative, then the children of each stack lie in the
box that has the size of the stack and is at the origin. They lie in the box of the stack itself
along an axis on which it stands at zero, and so it does along every axis on which no node gives it
a position. -/
theorem children_lie_in_stack {tree : Tree ℚ} {scene : Scene ℚ}
    (compiled : tree.compile = .ok scene)
    (sizes : ∀ record ∈ scene.records, 0 ≤ record.width ∧ 0 ≤ record.height)
    (gaps : ∀ node ∈ tree.nodes, node.shape.GapNonneg) (settings : Settings ℚ) :
    ∃ named solution, tree.named .top [] = .ok named ∧ scene.solve settings = .ok solution ∧
      (solution.stats.residual = some 0 →
        named.Apart → ∀ node ∈ named.preorder, ∀ axis spacing alignment,
          node.shape = .stack axis spacing alignment →
          ∃ box, Entries.find? solution.layout node.name = some box ∧
            (∀ along, ¬named.PlacesAlong along node.name → box.position along = 0) ∧
            ∀ name ∈ node.children, ∃ child, Entries.find? solution.layout name = some child ∧
              ∀ along, child.LiesIn box.atOrigin along ∧
                (box.position along = 0 → child.LiesIn box along)) := by
  obtain ⟨named, naming, well, rfl⟩ := Tree.exists_named_of_compile compiled
  obtain ⟨solution, count, solved, found, resting⟩ := named.solve_eq_ok well settings
  refine ⟨named, solution, naming, solved, ?_⟩
  intro zero apart node member axis spacing alignment isStack
  have rests := resting zero
  have gap : ∀ node ∈ named.preorder, node.shape.GapNonneg := by
    intro node member
    obtain ⟨original, listed, same⟩ := Tree.exists_shape_of_named naming member
    exact same ▸ gaps original listed
  have nonneg := NamedTree.extentsNonneg_at_rest well apart sizes gap rests
  have stacked := NamedTree.stacked_at_rest well apart member isStack rests
  have known := well.mem_names member
  refine ⟨_, found node.name (known _ List.mem_cons_self), ?_, ?_⟩
  · intro along free
    exact NamedTree.position_stack_eq_zero well member isStack free
  · intro name denoted
    refine ⟨_, found name (known name (List.mem_cons_of_mem _ denoted)), ?_⟩
    intro along
    have spacingNonneg : 0 ≤ spacing := by
      have gap := gap node member
      rwa [isStack] at gap
    have inside := stacked.liesIn_atOrigin spacingNonneg
      (fun child listed direction => by
        obtain ⟨rank, _, rfl⟩ := List.mem_map.mp listed
        exact extent_boxOf_nonneg nonneg rank direction)
      (List.mem_map_of_mem (List.mem_map_of_mem denoted)) along
    exact ⟨inside, inside.of_position_eq_zero⟩

/-- A column of a rectangle and another column, which has a rectangle of its own. -/
def nestedColumn : Tree ℚ :=
  .node none (some "outer") (.stack .y 0 .start)
    [.node none (some "a") (.rect 0 0 10 10 ⟨none, none, none⟩) [],
      .node none (some "inner") (.stack .y 0 .start)
        [.node none (some "b") (.rect 0 0 10 10 ⟨none, none, none⟩) []]]

/-- At rest both children of the outer column lie in it. The child of the inner one lies in a box of
its size at the origin, and along the first axis in the inner column itself. -/
theorem children_lie_in_nestedColumn :
    ∃ scene solution, nestedColumn.compile = .ok scene ∧
      (∀ record ∈ scene.records, 0 ≤ record.width ∧ 0 ≤ record.height) ∧
      scene.solve ⟨10, 0, 1⟩ = .ok solution ∧ solution.stats.residual = some 0 ∧
      (∃ outer, Entries.find? solution.layout "outer" = some outer ∧
        ∀ name ∈ ["a", "inner"], ∃ child, Entries.find? solution.layout name = some child ∧
          ∀ along, child.LiesIn outer along) ∧
      ∃ inner b, Entries.find? solution.layout "inner" = some inner ∧
        Entries.find? solution.layout "b" = some b ∧ (∀ along, b.LiesIn inner.atOrigin along) ∧
          (inner.position .x = 0 → b.LiesIn inner .x) := by
  obtain ⟨scene, compiled, sizes, residual⟩ : ∃ scene, nestedColumn.compile = .ok scene ∧
      (∀ record ∈ scene.records, 0 ≤ record.width ∧ 0 ≤ record.height) ∧
      (scene.solve ⟨10, 0, 1⟩).toOption.bind (fun solution => solution.stats.residual) =
        some 0 := ⟨_, rfl, by decide +kernel, by decide +kernel⟩
  have gaps : ∀ node ∈ nestedColumn.nodes, node.shape.GapNonneg := by
    simp [nestedColumn, Tree.nodes, Tree.nodesAll, Shape.GapNonneg]
  obtain ⟨named, solution, naming, solved, within⟩ :=
    children_lie_in_stack compiled sizes gaps ⟨10, 0, 1⟩
  rw [solved] at residual
  have names : nestedColumn.named .top [] = .ok (.node "outer" (.stack .y 0 .start)
      [.node "a" (.rect 0 0 10 10 ⟨none, none, none⟩) [],
        .node "inner" (.stack .y 0 .start)
          [.node "b" (.rect 0 0 10 10 ⟨none, none, none⟩) []]]) := rfl
  rw [names] at naming
  cases naming
  have within := within residual (by
    simp [NamedTree.Apart, NamedTree.preorder, NamedTree.preorderAll, NamedTree.name])
  obtain ⟨outer, foundOuter, free, children⟩ := within ⟨"outer", .stack .y 0 .start, ["a", "inner"]⟩
    (by simp [NamedTree.preorder, NamedTree.preorderAll, NamedTree.name]) _ _ _ rfl
  obtain ⟨inner, foundInner, _, below⟩ := within ⟨"inner", .stack .y 0 .start, ["b"]⟩
    (by simp [NamedTree.preorder, NamedTree.preorderAll, NamedTree.name]) _ _ _ rfl
  obtain ⟨b, foundB, inside⟩ := below "b" (by simp)
  refine ⟨scene, solution, compiled, sizes, solved, residual, ⟨outer, foundOuter, ?_⟩,
    inner, b, foundInner, foundB, fun along => (inside along).1, (inside .x).2⟩
  intro name denoted
  obtain ⟨child, found, inside⟩ := children name denoted
  refine ⟨child, found, fun along => (inside along).2 (free along ?_)⟩
  simp [NamedTree.PlacesAlong, NamedTree.preorder, NamedTree.preorderAll, NamedTree.name]

/-- The layout puts every child of a stack in the box of the stack. -/
def NamedTree.KeepsChildren (tree : NamedTree ℚ) (layout : Layout ℚ) : Prop :=
  ∀ node ∈ tree.preorder, ∀ axis spacing alignment, node.shape = .stack axis spacing alignment →
    ∀ name ∈ node.children, ∀ box child, Entries.find? layout node.name = some box →
      Entries.find? layout name = some child → ∀ along, child.LiesIn box along

/-- A column of a frame that its negative padding makes smaller than nothing, and a rectangle. -/
def shrunkFrame : Tree ℚ :=
  .node none (some "column") (.stack .y 0 .start)
    [.node none (some "frame") (.background (-10) ⟨none, none, none⟩)
        [.node none (some "a") (.rect (-10) (-10) 5 5 ⟨none, none, none⟩) []],
      .node none (some "b") (.rect 0 0 5 5 ⟨none, none, none⟩) []]

/-- The tree is laid out at rest with sizes and spacings that are not negative and with nothing
twice among a node and its children, and yet not every child of a stack is in the box of the
stack. -/
def Tree.LosesChildren (tree : Tree ℚ) (settings : Settings ℚ) : Prop :=
  ∃ scene named solution, tree.compile = .ok scene ∧
    (∀ record ∈ scene.records, 0 ≤ record.width ∧ 0 ≤ record.height) ∧
    (∀ node ∈ tree.nodes, ∀ axis spacing alignment,
      node.shape = .stack axis spacing alignment → 0 ≤ spacing) ∧
    tree.named .top [] = .ok named ∧
    (∀ node ∈ named.preorder, (node.name :: node.children).Nodup) ∧
    scene.solve settings = .ok solution ∧ solution.stats.residual = some 0 ∧
    ¬named.KeepsChildren solution.layout

/-- A child that begins before the stack is lost. -/
theorem Tree.losesChildren_of_before {tree : Tree ℚ} {scene : Scene ℚ} {named : NamedTree ℚ}
    {settings : Settings ℚ} (node : NamedNode ℚ) (name : String)
    (compiled : tree.compile = .ok scene)
    (sizes : ∀ record ∈ scene.records, 0 ≤ record.width ∧ 0 ≤ record.height)
    (spacings : ∀ node ∈ tree.nodes, ∀ axis spacing alignment,
      node.shape = .stack axis spacing alignment → 0 ≤ spacing)
    (naming : tree.named .top [] = .ok named)
    (apart : ∀ node ∈ named.preorder, (node.name :: node.children).Nodup)
    (member : node ∈ named.preorder) {axis : Axis} {spacing : ℚ} {alignment : Alignment}
    (isStack : node.shape = .stack axis spacing alignment) (denoted : name ∈ node.children)
    {top place : ℚ} (before : place < top)
    (laidOut : (scene.solve settings).toOption.map (fun solution => (solution.stats.residual,
      (Entries.find? solution.layout node.name).map Box.y,
      (Entries.find? solution.layout name).map Box.y)) = some (some 0, some top, some place)) :
    tree.LosesChildren settings := by
  cases solved : scene.solve settings with
  | error error =>
      rw [solved] at laidOut
      cases laidOut
  | ok solution =>
      rw [solved] at laidOut
      simp only [Except.toOption, Option.map_some, Option.some.injEq, Prod.mk.injEq] at laidOut
      obtain ⟨residual, box, child⟩ := laidOut
      obtain ⟨box, foundBox, rfl⟩ := Option.map_eq_some_iff.mp box
      obtain ⟨child, foundChild, rfl⟩ := Option.map_eq_some_iff.mp child
      refine ⟨scene, named, solution, compiled, sizes, spacings, naming, apart, solved, residual,
        ?_⟩
      intro keeps
      have inside := keeps node member _ _ _ isStack name denoted _ _ foundBox foundChild .y
      exact absurd inside.1 (not_le.mpr before)

/-- A column that stands below a rectangle leaves its child at the origin, and a child of negative
size draws the next one out of the column. -/
theorem columns_lose_children :
    nestedColumn.LosesChildren ⟨10, 0, 1⟩ ∧ shrunkFrame.LosesChildren ⟨10, 0, 1⟩ := by
  constructor
  · apply Tree.losesChildren_of_before ⟨"inner", .stack .y 0 .start, ["b"]⟩ "b" rfl
      (by decide +kernel) _ rfl (by decide) _ rfl (List.mem_singleton_self "b")
      (show (0 : ℚ) < 10 by norm_num) (by decide +kernel)
    · simp [nestedColumn, Tree.nodes, Tree.nodesAll]
    · simp [NamedTree.preorder, NamedTree.preorderAll, NamedTree.name]
  · apply Tree.losesChildren_of_before ⟨"column", .stack .y 0 .start, ["frame", "b"]⟩ "b" rfl
      (by decide +kernel) _ rfl (by decide) _ rfl (by decide)
      (show (-15 : ℚ) < 0 by norm_num) (by decide +kernel)
    · simp [shrunkFrame, Tree.nodes, Tree.nodesAll]
    · simp [NamedTree.preorder, NamedTree.preorderAll, NamedTree.name]

end SceneLayout
