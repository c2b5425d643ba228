import SceneLayout.Drawing.Document
import SceneLayout.Number.Double
import SceneLayout.Proofs.Acceptance
import SceneLayout.Proofs.Boxes
import SceneLayout.Proofs.Ranks

/-!
# Drawn nodes

The document of a compiled tree is drawn node by node in preorder. A rectangle, a background, a
circle and a text have one element each, an arrow has a line and a head between the boxes that its
first two children denote, and no other node has any. References are no nodes, so what they denote
is drawn only once, where it stands.

## Implementation notes

An element is found again through ids alone: the layout and the records are looked up by id, and so
are the ends of an arrow. None of the lookups fails, since the ids of a compiled tree differ and
none of them is empty.

Main statement: `document_draws_nodes_in_preorder`.
-/

namespace SceneLayout

universe u

variable {α : Type u}

/-! ## What is drawn -/

namespace Tree

mutual

/-- The nodes of a tree with their ranks, each before its children. -/
def rankedNodes (next : Nat) : Tree α → List (RankedNode α)
  | ref _ => []
  | node _ _ shape children =>
      ⟨next, shape, rankedChildren (next + 1) children⟩ :: rankedNodesAll (next + 1) children

/-- The nodes of a list of trees with their ranks, each before its children. -/
def rankedNodesAll (next : Nat) : List (Tree α) → List (RankedNode α)
  | [] => []
  | tree :: rest => tree.rankedNodes next ++ rankedNodesAll (next + tree.nodes.length) rest

end

end Tree

/-- The way that moves what the layout covers to the margin. -/
def Layout.offset [Scalar α] [VectorLength α] (layout : Layout α) (records : List (Record α))
    (margin : α) : Vec α :=
  ⟨margin - (layout.bounds records).start.x, margin - (layout.bounds records).start.y⟩

/-- The elements are those of a node of the shape, which has the id and whose children denote
entities with the boxes. -/
inductive Shape.DrawnAs [Scalar α] [VectorLength α] (offset : Vec α) (id : String)
    (boxes : List (Box α)) : Shape α → List (Element α) → Prop where
  | rect {x y width height : α} {style : Style α} (left top across down : α) (paint : Paint α) :
      DrawnAs offset id boxes (.rect x y width height style) [.rect id left top across down paint]
  | background {padding : α} {style : Style α} (left top across down : α) (paint : Paint α) :
      DrawnAs offset id boxes (.background padding style) [.rect id left top across down paint]
  | circle {r x y : α} {style : Style α} (cx cy : α) (paint : Paint α) :
      DrawnAs offset id boxes (.circle r x y style) [.circle id cx cy r paint]
  | text {content : String} {x y : α} {width height : Option α} {style : Style α} (left top : α)
      (paint : Paint α) :
      DrawnAs offset id boxes (.text content x y width height style)
        [.text id left top content paint]
  | arrow {style : Style α} {source target : Box α} {rest : List (Box α)}
      (ends : boxes = source :: target :: rest) (points : ArrowPoints α)
      (between : points = .between source target offset) (paint : Paint α) :
      DrawnAs offset id boxes (.arrow style)
        [.line id points.start.x points.start.y points.shaftEnd.x points.shaftEnd.y paint,
          .polygon none [points.tip, points.left, points.right] paint]
  | loose {style : Style α} (few : boxes.length < 2) : DrawnAs offset id boxes (.arrow style) []
  | group : DrawnAs offset id boxes .group []
  | container (type : Option String) : DrawnAs offset id boxes (.container type) []
  | stack (axis : Axis) (spacing : α) (alignment : Alignment) :
      DrawnAs offset id boxes (.stack axis spacing alignment) []
  | align (axis : Axis) (alignment : Alignment) :
      DrawnAs offset id boxes (.align axis alignment) []
  | distribute (axis : Axis) (spacing : α) :
      DrawnAs offset id boxes (.distribute axis spacing) []

namespace RankedNode

/-- The boxes are those of the nodes that the children denote, where the ids are those of all nodes
by rank. -/
def Resolves (ids : List String) (layout : Layout α) (node : RankedNode α)
    (boxes : List (Box α)) : Prop :=
  List.Forall₂ (fun child box => ∃ rank id, child.2.Denotes ids child.1 rank ∧
    ids[rank]? = some id ∧ Entries.find? layout id = some box) node.children boxes

/-- The elements are those of the node. -/
def DrawnBy [Scalar α] [VectorLength α] (ids : List String) (layout : Layout α) (offset : Vec α)
    (node : RankedNode α) (elements : List (Element α)) : Prop :=
  ∃ id boxes, ids[node.rank]? = some id ∧ node.Resolves ids layout boxes ∧
    node.shape.DrawnAs offset id boxes elements

end RankedNode

/-! ## Names are not empty -/

namespace NodeName

theorem candidate_ne_empty (type : Option String) (path : TreePath) (number : Nat) :
    candidate (base type path) number ≠ "" := by
  intro empty
  have length := congrArg String.length empty
  cases number <;> simp [candidate, base] at length

theorem exists_firstFreeFrom_eq (used : List String) (base : String) (left number : Nat) :
    ∃ k, firstFreeFrom used base left number = candidate base k := by
  induction left generalizing number with
  | zero => exact ⟨number, rfl⟩
  | succ left ih =>
      rw [firstFreeFrom]
      split
      · exact ih (number + 1)
      · exact ⟨number, rfl⟩

theorem choose_ne_empty {used : List String} {key id type : Option String} {path : TreePath}
    {name : String} (chosen : choose used key id type path = .ok name) : name ≠ "" := by
  cases found : explicit? key id with
  | none =>
      rw [choose, found] at chosen
      cases chosen
      obtain ⟨number, tried⟩ := exists_firstFreeFrom_eq used (base type path) used.length 0
      rw [firstFree, tried]
      exact candidate_ne_empty type path number
  | some entry =>
      obtain rfl := eq_of_choose chosen found
      exact (Visit.explicit?_eq_some_iff.mp found).1

end NodeName

namespace Tree

mutual

theorem ne_empty_of_mem_names {path : TreePath} {used : List String} :
    ∀ {tree : Tree α} {result : NamedTree α}, tree.named path used = .ok result →
      ∀ name ∈ result.names, name ≠ ""
  | ref target, result, h => by
      obtain ⟨_, rfl⟩ := named_ref_eq_ok h
      rw [NamedTree.names, NamedTree.preorder]
      exact List.forall_mem_nil _
  | node key id shape children, result, h => by
      obtain ⟨name, results, chosen, others, rfl⟩ := named_node_eq_ok h
      rw [NamedTree.names_node, List.forall_mem_cons]
      exact ⟨NodeName.choose_ne_empty chosen, ne_empty_of_mem_namesAll others⟩

theorem ne_empty_of_mem_namesAll {path : TreePath} {index : Nat} {used : List String} :
    ∀ {trees : List (Tree α)} {results : List (NamedTree α)},
      namedAll path index used trees = .ok results →
      ∀ name ∈ NamedTree.namesAll results, name ≠ ""
  | [], results, h => by
      rw [namedAll] at h
      cases h
      rw [NamedTree.namesAll, NamedTree.preorderAll]
      exact List.forall_mem_nil _
  | tree :: rest, results, h => by
      obtain ⟨first, others, here, later, rfl⟩ := namedAll_cons_eq_ok h
      rw [NamedTree.namesAll_cons, List.forall_mem_append]
      exact ⟨ne_empty_of_mem_names here, ne_empty_of_mem_namesAll later⟩

end

/-! ## Naming keeps the nodes in preorder -/

mutual

theorem rankedNodes_named {path : TreePath} {used names : List String} :
    ∀ {tree : Tree α} {result : NamedTree α}, tree.named path used = .ok result →
      used ++ result.names <+: names →
      List.Forall₂ (RankedNode.Becomes names) (tree.rankedNodes used.length) result.preorder
  | ref target, result, h, _ => by
      obtain ⟨_, rfl⟩ := named_ref_eq_ok h
      rw [rankedNodes, NamedTree.preorder]
      exact .nil
  | node key id shape children, result, h, start => by
      obtain ⟨name, results, chosen, others, rfl⟩ := named_node_eq_ok h
      rw [NamedTree.names_node] at start
      have rank := idxOf_of_choose chosen start
      rw [List.append_cons] at start
      have below := rankedNodesAll_named others start
      have children := denotes_namedAll others start
      rw [List.length_append, List.length_singleton] at below children
      rw [rankedNodes, NamedTree.preorder]
      exact .cons ⟨rfl, rank, children⟩ below

theorem rankedNodesAll_named {path : TreePath} {index : Nat} {used names : List String} :
    ∀ {trees : List (Tree α)} {results : List (NamedTree α)},
      namedAll path index used trees = .ok results →
      used ++ NamedTree.namesAll results <+: names →
      List.Forall₂ (RankedNode.Becomes names) (rankedNodesAll used.length trees)
        (NamedTree.preorderAll results)
  | [], results, h, _ => by
      rw [namedAll] at h
      cases h
      rw [rankedNodesAll, NamedTree.preorderAll]
      exact .nil
  | tree :: rest, results, h, start => by
      obtain ⟨first, others, here, later, rfl⟩ := namedAll_cons_eq_ok h
      rw [NamedTree.namesAll_cons, ← List.append_assoc] at start
      have next := rankedNodesAll_named later start
      rw [List.length_append, length_names here] at next
      rw [rankedNodesAll, NamedTree.preorderAll]
      exact List.rel_append (rankedNodes_named here ((List.prefix_append _ _).trans start)) next

end

end Tree

/-! ## Elements of a node -/

theorem forall₂_and_right {β γ : Type*} {related : β → γ → Prop} {holds : γ → Prop}
    {items : List β} {others : List γ} (each : ∀ other ∈ others, holds other)
    (h : List.Forall₂ related items others) :
    List.Forall₂ (fun item other => holds other ∧ related item other) items others :=
  ((List.forall₂_and_left others items).mpr ⟨each, h.flip⟩).flip

/-- Every id stands in the layout with the box of its rank. -/
theorem layoutOf_eq_map {ids : List String} (distinct : ids.Nodup) (numbers : Nat → α) :
    layoutOf ids numbers = ids.map fun id => (id, boxAt numbers (baseOf (ids.idxOf id))) := by
  apply List.ext_getElem?
  intro rank
  rw [layoutOf, List.getElem?_mapIdx, List.getElem?_map]
  cases found : ids[rank]? with
  | none => rfl
  | some id =>
      obtain ⟨inside, rfl⟩ := List.getElem?_eq_some_iff.mp found
      rw [Option.map_some, Option.map_some, distinct.idxOf_getElem rank inside]

section Drawn

variable [Scalar α]

/-- The record of a node is found by its id. -/
theorem NamedTree.find?_byId {tree : NamedTree α} (distinct : tree.names.Nodup)
    {node : NamedNode α} (member : node ∈ tree.preorder) :
    Entries.find? (Record.byId tree.scene.records) node.name = some node.record := by
  have keys : Entries.keys (tree.scene.records.map fun record => (record.id, record)) =
      tree.names := by
    rw [← ids_scene, Entries.keys, List.map_map]
    rfl
  rw [← keys] at distinct
  obtain ⟨rank, found⟩ := List.getElem?_of_mem member
  rw [Record.byId, Entries.ofList_of_nodup distinct]
  apply Entries.find?_of_getElem? distinct
  rw [scene, List.getElem?_map, List.getElem?_map, found, Option.map_some, Option.map_some,
    NamedNode.id_record]

variable [VectorLength α]

/-- A node is drawn as its shape says, between the boxes that its children have in the layout. -/
theorem NamedNode.drawnAs (node : NamedNode α) {layout : Layout α} {boxOf : String → Box α}
    (listed : ∀ child ∈ node.children,
      child ≠ "" ∧ Entries.find? layout child = some (boxOf child))
    (offset : Vec α) (box : Box α) :
    node.shape.DrawnAs offset node.name (node.children.map boxOf)
      (node.record.elements layout offset node.name box) := by
  obtain ⟨name, shape, children⟩ := node
  cases shape with
  | rect x y width height style => exact .rect _ _ _ _ _
  | background padding style => exact .background _ _ _ _ _
  | circle r x y style => exact .circle _ _ _
  | text content x y width height style => exact .text _ _ _
  | group => exact .group
  | container type => exact .container type
  | stack axis spacing alignment => exact .stack axis spacing alignment
  | align axis alignment => exact .align axis alignment
  | distribute axis spacing => exact .distribute axis spacing
  | arrow style =>
      match children with
      | [] => exact .loose (by simp)
      | [source] => exact .loose (by simp)
      | source :: target :: rest =>
          have boxOf_eq {child : String} (member : child ∈ source :: target :: rest) :
              Record.arrowEnds.boxOf layout (some child) = some (boxOf child) := by
            obtain ⟨written, found⟩ := listed child member
            have notEmpty : ¬child.isEmpty = true := fun empty =>
              written (String.isEmpty_iff.mp empty)
            rw [Record.arrowEnds.boxOf, if_neg notEmpty, found]
          have first := boxOf_eq List.mem_cons_self
          have second := boxOf_eq (List.mem_cons_of_mem _ List.mem_cons_self)
          have points : Record.arrowPoints
              (NamedNode.record ⟨name, .arrow style, source :: target :: rest⟩) layout offset =
                some (.between (boxOf source) (boxOf target) offset) := by
            simp only [Record.arrowPoints, Record.arrowEnds, NamedNode.record, first, second]
            rfl
          have kind : (NamedNode.record ⟨name, .arrow style, source :: target :: rest⟩ :
              Record α).kind = .arrow := rfl
          simp only [Record.elements, kind, points]
          exact .arrow rfl _ rfl _

namespace NamedTree

variable {tree : NamedTree α}

/-- The layout is drawn node by node. -/
theorem elements_document (distinct : tree.names.Nodup) (numbers : Nat → α) (margin : α) :
    ((layoutOf tree.names numbers).document tree.scene.records margin).elements =
      (tree.preorder.map fun node => node.record.elements (layoutOf tree.names numbers)
        ((layoutOf tree.names numbers).offset tree.scene.records margin) node.name
        (boxAt numbers (baseOf (tree.names.idxOf node.name)))).flatten := by
  have entries : layoutOf tree.names numbers = tree.preorder.map fun node =>
      (node.name, boxAt numbers (baseOf (tree.names.idxOf node.name))) := by
    rw [layoutOf_eq_map distinct]
    conv_lhs => rw [names, List.map_map]
    rfl
  simp only [Layout.document]
  conv_lhs =>
    arg 2
    rw [entries]
  rw [List.flatMap_map, ← List.flatMap_def]
  apply List.flatMap_congr
  intro node member
  simp only [find?_byId distinct member]
  rfl

/-- A node of the named tree is drawn as the node of the tree that it comes from. -/
theorem drawnBy (well : tree.WellNamed) (written : ∀ name ∈ tree.names, name ≠ "")
    (numbers : Nat → α) (offset : Vec α) {node : RankedNode α} {named : NamedNode α}
    (member : named ∈ tree.preorder) (becomes : node.Becomes tree.names named) :
    node.DrawnBy tree.names (layoutOf tree.names numbers) offset
      (named.record.elements (layoutOf tree.names numbers) offset named.name
        (boxAt numbers (baseOf (tree.names.idxOf named.name)))) := by
  obtain ⟨own, children⟩ := List.forall_mem_cons.mp (well.mem_names member)
  have found {name : String} (known : name ∈ tree.names) :=
    find?_layoutOf well.distinct numbers known
  refine ⟨named.name, named.children.map fun child =>
    boxAt numbers (baseOf (tree.names.idxOf child)), ?_, ?_, ?_⟩
  · rw [← becomes.rank]
    exact List.getElem?_idxOf own
  · rw [RankedNode.Resolves, List.forall₂_map_right_iff]
    refine (forall₂_and_right children becomes.children).imp fun child name known => ?_
    exact ⟨_, name, known.2, List.getElem?_idxOf known.1, found known.1⟩
  · rw [← becomes.shape]
    apply named.drawnAs
    exact fun child denoted =>
      ⟨written child (children child denoted), found (children child denoted)⟩

end NamedTree

end Drawn

/-- Every tree that is accepted is laid out, whatever the settings, and drawn with any margin. Its
nodes have different ids, which are their explicit names where they have any. The elements of the
document are those of the nodes in preorder: one for a rectangle, a background, a circle or a text,
the line and the head of an arrow with two children or more, and none for any other node. -/
theorem document_draws_nodes_in_preorder [Scalar α] [VectorLength α] {tree : Tree α}
    {scene : Scene α} (compiled : tree.compile = .ok scene) (settings : Settings α) (margin : α) :
    ∃ solution drawings, scene.solve settings = .ok solution ∧ scene.ids.Nodup ∧
      List.Forall₂ (fun node id => ∀ field name,
        NodeName.explicit? node.key node.id = some (field, name) → id = name)
        tree.nodes scene.ids ∧
      List.Forall₂ (RankedNode.DrawnBy scene.ids solution.layout
        (solution.layout.offset scene.records margin)) (tree.rankedNodes 0) drawings ∧
      (solution.layout.document scene.records margin).elements = drawings.flatten := by
  obtain ⟨result, named, well, rfl⟩ := Tree.exists_named_of_compile compiled
  have ids := result.ids_scene
  obtain ⟨count, solved, -⟩ := Scene.solve_eq_ok (ids ▸ well.distinct)
    (NamedTree.inside_scene well) settings
  rw [ids] at solved ⊢
  refine ⟨_, _, solved, well.distinct, ?_, ?_, NamedTree.elements_document well.distinct _ margin⟩
  · rw [NamedTree.names, List.forall₂_map_right_iff]
    exact (Tree.nodes_named named).imp fun node _ becomes => becomes.name
  · have becomes := Tree.rankedNodes_named named List.prefix_rfl
    rw [List.forall₂_map_right_iff]
    refine (forall₂_and_right (fun _ member => member) becomes).imp fun node _ known => ?_
    exact NamedTree.drawnBy well (Tree.ne_empty_of_mem_names named) _ _ known.1 known.2

/-- A frame around a disc, an arrow from the disc to its label and back to the frame, and an arrow
that leads nowhere. -/
def framedDisc : Tree Float :=
  .node none none .group
    [.node (some "frame") none (.background 2 ⟨none, none, none⟩)
      [.node (some "disc") none (.circle 4 0 0 ⟨none, none, none⟩) []],
      .node none none (.arrow ⟨none, none, none⟩)
        [.ref "disc", .node none (some "label") (.text "hi" 0 30 none none ⟨none, none, none⟩) [],
          .ref "frame"],
      .node none (some "loose") (.arrow ⟨none, none, none⟩) [.ref "label"]]

/-- The frame is drawn before the disc, and the arrow before the label that it points to. -/
theorem document_draws_framedDisc :
    ∃ scene, framedDisc.compile = .ok scene ∧ ∀ settings margin, ∃ solution drawings,
      scene.solve settings = .ok solution ∧ scene.ids.Nodup ∧
      List.Forall₂ (fun node id => ∀ field name,
        NodeName.explicit? node.key node.id = some (field, name) → id = name)
        framedDisc.nodes scene.ids ∧
      List.Forall₂ (RankedNode.DrawnBy scene.ids solution.layout
        (solution.layout.offset scene.records margin)) (framedDisc.rankedNodes 0) drawings ∧
      (solution.layout.document scene.records margin).elements = drawings.flatten := by
  obtain ⟨scene, compiled⟩ : ∃ scene, framedDisc.compile = .ok scene := ⟨_, rfl⟩
  exact ⟨scene, compiled, fun settings margin =>
    document_draws_nodes_in_preorder compiled settings margin⟩

end SceneLayout
