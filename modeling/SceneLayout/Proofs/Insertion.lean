import SceneLayout.Number.Double
import SceneLayout.Proofs.Boxes
import SceneLayout.Proofs.InsertedLeaves
import SceneLayout.Proofs.Relocation

/-!
# Layouts with an inserted leaf

A figure that is inserted into a tree gets a rank, and the entities behind it move up by one rank.
No operator looks at the children of a group, so all operators follow the entities they work on, and
the relaxation does not see that these stand elsewhere in the buffer. The figure itself belongs to
no operator and keeps its box.

Main statement: `solve_with_inserted_figure`.
-/

namespace SceneLayout

universe u

variable {α : Type u}

/-! ## Operators on the later ranks -/

/-- The rank of an entity when one has been inserted at a rank. -/
def rankBehind (place rank : Nat) : Nat := if rank < place then rank else rank + 1

theorem idxOf_insert {before after : List String} {name other : String} (different : other ≠ name) :
    (before ++ name :: after).idxOf other =
      rankBehind before.length ((before ++ after).idxOf other) := by
  rw [List.idxOf_append, List.idxOf_append, rankBehind]
  by_cases early : other ∈ before
  · rw [if_pos early, if_pos early, if_pos (List.idxOf_lt_length_of_mem early)]
  · rw [if_neg early, if_neg early, if_neg (by omega), List.idxOf_cons_ne _ different.symm]
    omega

/-- The slot of an entity when one has been inserted at a rank. -/
def slotBehind (place slot : Nat) : Nat :=
  if slot < baseOf place then slot else slot + slotsPerEntity

theorem slotBehind_eq (place rank : Nat) {offset : Nat} (small : offset < 4) :
    slotBehind place (baseOf rank + offset) = baseOf (rankBehind place rank) + offset := by
  have early : baseOf rank + offset < baseOf place ↔ rank < place := by
    simp only [baseOf, slotsPerEntity]
    omega
  rw [slotBehind, rankBehind]
  by_cases before : rank < place
  · rw [if_pos (early.mpr before), if_pos before]
  · rw [if_neg (early.not.mpr before), if_neg before, Nat.add_right_comm]
    rfl

theorem slotBehind_baseOf (place rank : Nat) :
    slotBehind place (baseOf rank) = baseOf (rankBehind place rank) :=
  slotBehind_eq place rank (show 0 < 4 by decide)

theorem slotBehind_injective (place : Nat) : Function.Injective (slotBehind place) := by
  intro first second same
  rw [slotBehind, slotBehind] at same
  split at same <;> split at same <;> omega

/-- The slots of the inserted entity belonged to none. -/
theorem not_mem_range_slotBehind (place : Nat) {offset : Nat} (small : offset < 4) :
    baseOf place + offset ∉ Set.range (slotBehind place) := by
  rintro ⟨slot, same⟩
  rw [slotBehind, slotsPerEntity] at same
  split at same <;> omega

/-- The entities from a rank on move up by one rank. -/
def Relocation.insertion (place : Nat) : Relocation where
  slot := slotBehind place
  base := slotBehind place
  axis direction := direction
  injective := slotBehind_injective place
  position rank direction := by
    rw [slotBehind_eq place rank direction.position_lt, slotBehind_baseOf]
  extent rank direction := by
    rw [slotBehind_eq place rank direction.extent_lt, slotBehind_baseOf]
  cross _ := rfl

section Ranks

variable (place : Nat) (children : List Nat)

theorem relocate_spanOf (axis : Axis) (rank : Nat) :
    (spanOf axis rank).relocate (.insertion place) = spanOf axis (rankBehind place rank) := by
  have position := slotBehind_eq place rank axis.position_lt
  have extent := slotBehind_eq place rank axis.extent_lt
  simp only [Span.relocate, spanOf, Relocation.insertion, position, extent]

theorem map_spanOf_rankBehind (axis : Axis) :
    (children.map (rankBehind place)).map (spanOf axis) =
      (children.map (spanOf axis)).map (Span.relocate (.insertion place)) := by
  rw [List.map_map, List.map_map]
  exact List.map_congr_left fun rank _ => (relocate_spanOf place axis rank).symm

theorem map_baseOf_rankBehind :
    (children.map (rankBehind place)).map baseOf =
      (children.map baseOf).map (slotBehind place) := by
  rw [List.map_map, List.map_map]
  exact List.map_congr_left fun rank _ => (slotBehind_baseOf place rank).symm

theorem alignOperator_rankBehind (axis : Axis) (alignment : Alignment) :
    (alignOperator axis alignment (children.map (rankBehind place)) : Operator α) =
      (alignOperator axis alignment children).relocate (.insertion place) := by
  cases alignment with
  | start =>
      have slots : (children.map (rankBehind place)).map (fun rank => baseOf rank + axis.position) =
          (children.map fun rank => baseOf rank + axis.position).map (slotBehind place) := by
        rw [List.map_map, List.map_map]
        exact List.map_congr_left fun rank _ =>
          (slotBehind_eq place rank axis.position_lt).symm
      simp only [alignOperator, slots]
      rfl
  | finish => simp only [alignOperator, map_spanOf_rankBehind, Operator.relocate]
  | center =>
      rcases List.eq_nil_or_concat' children with rfl | ⟨others, last, rfl⟩
      · cases axis <;> rfl
      · cases axis with
        | y =>
            simp only [alignOperator, map_spanOf_rankBehind, Operator.relocate]
        | x =>
            cases others with
            | nil =>
                simp only [alignOperator, List.nil_append, List.map_cons, List.map_nil,
                  List.getLast?_singleton, List.dropLast_singleton, Operator.relocate,
                  relocate_spanOf]
            | cons first rest =>
                rw [alignOperator_anchored, List.map_append, List.map_cons, List.map_singleton,
                  alignOperator_anchored, ← List.map_cons, map_spanOf_rankBehind,
                  ← relocate_spanOf]
                rfl

theorem Shape.operator?_rankBehind (shape : Shape α) (rank : Nat) :
    shape.operator? (rankBehind place rank) (children.map (rankBehind place)) =
      (shape.operator? rank children).map (Operator.relocate (.insertion place)) := by
  cases shape with
  | stack axis spacing alignment =>
      simp only [operator?, map_baseOf_rankBehind, ← slotBehind_baseOf]
      rfl
  | align axis alignment =>
      simp only [operator?, alignOperator_rankBehind, Option.map_some]
  | distribute axis spacing =>
      simp only [operator?, map_spanOf_rankBehind, Option.map_some, Operator.relocate]
  | background padding style =>
      cases children with
      | nil => rfl
      | cons child rest =>
          simp only [operator?, List.map_cons, List.head?_cons, Option.map_some,
            ← slotBehind_baseOf]
          rfl
  | _ => rfl

end Ranks

/-! ## Scenes with an inserted figure -/

section Scenes

variable [Scalar α]

/-- The declared numbers move up along with the records. -/
theorem numbers_initial_insertion (before after : List (Record α)) (record : Record α) :
    (Scene.initial (before ++ record :: after)).numbers ∘ slotBehind before.length =
      (Scene.initial (before ++ after)).numbers := by
  induction before with
  | nil =>
      ext slot
      exact numbers_initial_cons record after slot
  | cons first rest ih =>
      have four : 4 ≤ baseOf (rest.length + 1) := by
        simp only [baseOf, slotsPerEntity]
        omega
      ext slot
      rw [Function.comp_apply, List.length_cons]
      by_cases early : slot < 4
      · rw [slotBehind, if_pos (by omega)]
        exact numbers_initial_first first _ _ early
      · obtain ⟨later, rfl⟩ := Nat.exists_eq_add_of_le' (Nat.le_of_not_lt early)
        have behind : slotBehind (rest.length + 1) (later + 4) =
            slotBehind rest.length later + 4 := by
          have next : baseOf (rest.length + 1) = baseOf rest.length + 4 := rfl
          rw [slotBehind, slotBehind, next]
          split <;> split <;> omega
        rw [behind, List.cons_append, numbers_initial_cons, List.cons_append, numbers_initial_cons]
        exact congrFun ih later

section Layouts

variable {before after : List String} {name : String}
  (distinct : (before ++ name :: after).Nodup) (image : Nat → α)
include distinct

omit [Scalar α] in
/-- An old id has the box that its slots have been put to. -/
theorem find?_layoutOf_behind {old : String} (member : old ∈ before ++ after) :
    Entries.find? (layoutOf (before ++ name :: after) image) old =
      some (boxAt (image ∘ slotBehind before.length) (baseOf ((before ++ after).idxOf old))) := by
  have fresh := (List.nodup_cons.mp (List.nodup_middle.mp distinct)).1
  have different : old ≠ name := fun same => fresh (same ▸ member)
  have known : old ∈ before ++ name :: after :=
    List.mem_append.mpr ((List.mem_append.mp member).imp_right (List.mem_cons_of_mem _))
  rw [find?_layoutOf distinct image known, idxOf_insert different]
  refine congrArg some (boxAt_congr fun offset small => ?_)
  exact congrArg image (slotBehind_eq before.length _ small).symm

omit [Scalar α] in
/-- The new id has the box at the rank where it stands. -/
theorem find?_layoutOf_inserted :
    Entries.find? (layoutOf (before ++ name :: after) image) name =
      some (boxAt image (baseOf before.length)) := by
  have absent : name ∉ before := fun early =>
    (List.nodup_cons.mp (List.nodup_middle.mp distinct)).1 (List.mem_append_left _ early)
  have known : name ∈ before ++ name :: after := List.mem_append_right _ List.mem_cons_self
  rw [find?_layoutOf distinct image known, List.idxOf_append_of_notMem absent,
    List.idxOf_cons_self, Nat.add_zero]

end Layouts

/-- A scene with one more record, whose operators follow their entities, is laid out like the scene
without it. The record keeps its box. -/
theorem Scene.solve_insertion [Scalar.OrdersPositives α] {before after : List (Record α)}
    {record : Record α} {operators : List (Operator α)} {scene larger : Scene α}
    (small : scene = ⟨before ++ after, operators⟩)
    (large : larger = ⟨before ++ record :: after,
      operators.map (Operator.relocate (.insertion before.length))⟩)
    (placed : ∀ operator ∈ scene.operators, operator.OnEntities)
    (inside : ∀ operator ∈ scene.operators, operator.Inside scene.slotCount)
    (insideLarger : ∀ operator ∈ larger.operators, operator.Inside larger.slotCount)
    (distinct : larger.ids.Nodup) (settings : Settings α) :
    ∃ solution image, scene.solve settings = .ok solution ∧ larger.solve settings = .ok image ∧
      image.stats = solution.stats ∧
      (∀ old ∈ scene.ids, ∃ box, Entries.find? solution.layout old = some box ∧
        Entries.find? image.layout old = some box) ∧
      Entries.find? image.layout record.id = some record.box := by
  have size : (initial scene.records).size = scene.slotCount := size_initial scene.records
  have size' : (initial larger.records).size = larger.slotCount := size_initial larger.records
  have ids : scene.ids = before.map Record.id ++ after.map Record.id := by
    rw [small, Scene.ids, List.map_append]
  have ids' : larger.ids = before.map Record.id ++ record.id :: after.map Record.id := by
    rw [large, Scene.ids, List.map_append, List.map_cons]
  have distinctOld : scene.ids.Nodup := by
    rw [ids', List.nodup_middle, List.nodup_cons] at distinct
    exact ids ▸ distinct.2
  have follow : larger.operators =
      scene.operators.map (Operator.relocate (.insertion before.length)) := by
    rw [large, small]
  have start : (initial larger.records).numbers ∘ slotBehind before.length =
      (initial scene.records).numbers := by
    rw [large, small]
    exact numbers_initial_insertion before after record
  rw [← size] at inside
  rw [← size', follow] at insideLarger
  obtain ⟨final, image, stats, ran, ran', finalSize, imageSize, moved, kept⟩ :=
    relax_relocate (.insertion before.length) settings placed inside insideLarger start
  rw [← follow] at ran'
  have solved := solve_of_relax ran (finalSize.trans size)
  have solved' := solve_of_relax ran' (imageSize.trans size')
  rw [ofList_layoutOf distinctOld] at solved
  rw [ofList_layoutOf distinct] at solved'
  refine ⟨_, _, solved, solved', rfl, ?_, ?_⟩
  · intro old member
    refine ⟨_, find?_layoutOf distinctOld final.numbers member, ?_⟩
    rw [ids] at member
    have box := find?_layoutOf_behind (ids' ▸ distinct) image.numbers member
    rw [List.length_map] at box
    rw [ids', box, ids, ← moved]
    rfl
  · have declared : larger.records[before.length]? = some record := by
      rw [large, List.getElem?_append_right le_rfl, Nat.sub_self]
      rfl
    have box := find?_layoutOf_inserted (ids' ▸ distinct) image.numbers
    rw [List.length_map] at box
    rw [ids', box, ← boxAt_initial declared]
    refine congrArg some (boxAt_congr fun offset within => ?_)
    exact kept _ (not_mem_range_slotBehind before.length within)

/-- The scene gets the record of the figure, and its operators follow their entities. -/
theorem NamedTree.Inserts.scene_eq {name : String} {shape : Shape α} {tree grown : NamedTree α}
    (inserts : Inserts (.node name shape []) tree grown) (figure : shape.IsFigure)
    (well : tree.WellNamed) (distinct : grown.names.Nodup) :
    ∃ before after operators, tree.scene = ⟨before ++ after, operators⟩ ∧
      grown.scene = ⟨before ++ shape.record name :: after,
        operators.map (Operator.relocate (.insertion before.length))⟩ := by
  obtain ⟨before, after, same, more⟩ := inserts.records figure
  have names : tree.names = before.map Record.id ++ after.map Record.id := by
    rw [names_eq_map_record, same, List.map_append]
  have names' : grown.names = before.map Record.id ++ name :: after.map Record.id := by
    rw [names_eq_map_record, more, List.map_append, List.map_cons, Shape.id_record]
  have fresh : name ∉ tree.names := by
    rw [names', List.nodup_middle, List.nodup_cons, ← names] at distinct
    exact distinct.1
  have idxOf {other : String} (known : other ∈ tree.names) :
      grown.names.idxOf other = rankBehind before.length (tree.names.idxOf other) := by
    have different : other ≠ name := fun equal => fresh (equal ▸ known)
    rw [names', names, idxOf_insert different, List.length_map]
  have follow : grown.scene.operators =
      tree.scene.operators.map (Operator.relocate (.insertion before.length)) := by
    rw [scene, scene, inserts.operators figure, List.map_filterMap]
    apply List.filterMap_congr
    intro node member
    have known := well.mem_names (tree.postorder_perm.mem_iff.mp member)
    obtain ⟨own, children⟩ := List.forall_mem_cons.mp known
    have ranks : node.children.map grown.names.idxOf =
        (node.children.map tree.names.idxOf).map (rankBehind before.length) := by
      rw [List.map_map]
      exact List.map_congr_left fun child denoted => idxOf (children child denoted)
    rw [NamedNode.operator?, idxOf own, ranks, Shape.operator?_rankBehind, NamedNode.operator?]
  refine ⟨before, after, tree.scene.operators, ?_, ?_⟩
  · rw [← same]
    rfl
  · rw [← more, ← follow]
    rfl

/-- If a tree with explicit names is accepted, it is also accepted with one more figure anywhere among
the children of a group or of a container, under a name that stands nowhere in the tree. Whatever
the settings, both are laid out with the same statistics, every old id has the same box in both, and
the figure has the box that is declared for it. -/
theorem solve_with_inserted_figure [Scalar.OrdersPositives α] {tree grown : Tree α}
    {scene : Scene α} (compiled : tree.compile = .ok scene)
    (explicit : ∀ node ∈ tree.nodes, node.HasName) {key id : Option String} {shape : Shape α}
    (figure : shape.IsFigure) {field : NameField} {name : String}
    (found : NodeName.explicit? key id = some (field, name)) (unmentioned : name ∉ tree.mentioned)
    (inserts : Tree.Inserts (.node key id shape []) tree grown) :
    ∃ larger, grown.compile = .ok larger ∧ ∀ settings, ∃ solution image,
      scene.solve settings = .ok solution ∧ larger.solve settings = .ok image ∧
      image.stats = solution.stats ∧
      (∀ old ∈ scene.ids, ∃ box, Entries.find? solution.layout old = some box ∧
        Entries.find? image.layout old = some box) ∧
      Entries.find? image.layout name = some (shape.record name).box := by
  obtain ⟨result, named, well, rfl⟩ := Tree.exists_named_of_compile compiled
  obtain ⟨outcome, named', within⟩ :=
    inserts.named figure found explicit unmentioned List.not_mem_nil named
  have compiled' : grown.compile = .ok outcome.scene := by
    rw [Tree.compile_eq, named']
    rfl
  obtain ⟨_, again, well', -⟩ := Tree.exists_named_of_compile compiled'
  cases named'.symm.trans again
  obtain ⟨before, after, operators, small, large⟩ := within.scene_eq figure well well'.distinct
  refine ⟨_, compiled', fun settings => ?_⟩
  have solved := Scene.solve_insertion small large NamedTree.onEntities_scene
    (NamedTree.inside_scene well) (NamedTree.inside_scene well')
    (outcome.ids_scene ▸ well'.distinct) settings
  rwa [Shape.id_record] at solved

end Scenes

/-- A column of a box and a group, and an alignment of the box with the disc in the group. -/
def groupedColumn (members : List (Tree Float)) : Tree Float :=
  .node (some "picture") none .group
    [.node (some "column") (some "disc") (.stack .y 2 .start)
      [.node (some "box") none (.rect 0 0 10 4 ⟨none, none, none⟩) [],
        .node none (some "members") .group members],
      .node none (some "level") (.align .x .center) [.ref "box", .ref "disc"]]

/-- The disc, whose name is also a hidden id of the column. -/
def columnDisc : Tree Float := .node (some "disc") none (.circle 3 1 0 ⟨none, none, none⟩) []

/-- A note that gets a rank before the disc. -/
def columnNote : Tree Float :=
  .node (some "") (some "note") (.text "hi" 5 6 none none ⟨none, none, none⟩) []

/-- The note comes in before the disc, and the alignment follows the disc. -/
theorem solve_with_inserted_columnNote :
    ∃ scene larger, (groupedColumn [columnDisc]).compile = .ok scene ∧
      (groupedColumn [columnNote, columnDisc]).compile = .ok larger ∧
      ∀ settings, ∃ solution image, scene.solve settings = .ok solution ∧
        larger.solve settings = .ok image ∧ image.stats = solution.stats ∧
        (∀ old ∈ scene.ids, ∃ box, Entries.find? solution.layout old = some box ∧
          Entries.find? image.layout old = some box) ∧
        Entries.find? image.layout "note" =
          some (Record.box ((Shape.text "hi" 5 6 none none ⟨none, none, none⟩).record "note")) := by
  have explicit : ∀ node ∈ (groupedColumn [columnDisc]).nodes, node.HasName := by
    simp only [groupedColumn, columnDisc, Tree.nodes, Tree.nodesAll, List.forall_mem_cons,
      List.append_nil, List.nil_append, List.cons_append]
    exact ⟨⟨"picture", by decide, .inl rfl⟩, ⟨"column", by decide, .inl rfl⟩,
      ⟨"box", by decide, .inl rfl⟩, ⟨"members", by decide, .inr rfl⟩, ⟨"disc", by decide, .inl rfl⟩,
      ⟨"level", by decide, .inr rfl⟩, List.forall_mem_nil _⟩
  have unmentioned : "note" ∉ (groupedColumn [columnDisc]).mentioned := by
    simp [groupedColumn, columnDisc, Tree.mentioned, Tree.mentionedAll]
  have inserts : Tree.Inserts columnNote (groupedColumn [columnDisc])
      (groupedColumn [columnNote, columnDisc]) :=
    .under [] _ (.under [_] [] (.here .group [] [columnDisc]))
  obtain ⟨scene, compiled⟩ : ∃ scene, (groupedColumn [columnDisc]).compile = .ok scene := ⟨_, rfl⟩
  obtain ⟨larger, accepted, solved⟩ := solve_with_inserted_figure compiled explicit
    (.text "hi" 5 6 none none ⟨none, none, none⟩) rfl unmentioned inserts
  exact ⟨scene, larger, compiled, accepted, solved⟩

end SceneLayout
