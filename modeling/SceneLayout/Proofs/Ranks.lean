import SceneLayout.Proofs.Compilation

/-!
# Ranks of the nodes of a tree

The rank of a node is the number of nodes before it in preorder, references not counted. A
compiled scene has the record of each node at its rank, and it has the operators of the
nodes that call for one in postorder. An operator works on the slots of its node and of
the nodes that the children denote: a child that is a node denotes itself, a reference
denotes the node before it that carries the name.

Main statement: `compile_resolves_ranks`.

## Implementation notes

Ranks come from the tree alone. The ids of the scene are needed only to say which node a
reference denotes; they differ, so it is a single one.
-/

namespace SceneLayout

universe u

variable {α : Type u}

/-- A node of a tree that is no reference. -/
structure TreeNode (α : Type u) where
  key : Option String
  id : Option String
  shape : Shape α

/-- A node with its rank. Each child stands with the rank that comes next when it is reached. -/
structure RankedNode (α : Type u) where
  rank : Nat
  shape : Shape α
  children : List (Nat × Tree α)

namespace Tree

mutual

/-- The nodes of a tree, each before its children. -/
def nodes : Tree α → List (TreeNode α)
  | ref _ => []
  | node key id shape children => ⟨key, id, shape⟩ :: nodesAll children

/-- The nodes of a list of trees, each before its children. -/
def nodesAll : List (Tree α) → List (TreeNode α)
  | [] => []
  | tree :: rest => tree.nodes ++ nodesAll rest

end

/-- The trees of a list with the ranks that come next at them. -/
def rankedChildren (next : Nat) : List (Tree α) → List (Nat × Tree α)
  | [] => []
  | tree :: rest => (next, tree) :: rankedChildren (next + tree.nodes.length) rest

mutual

/-- The nodes of a tree with their ranks, each after its children. -/
def ranked (next : Nat) : Tree α → List (RankedNode α)
  | ref _ => []
  | node _ _ shape children =>
      rankedAll (next + 1) children ++ [⟨next, shape, rankedChildren (next + 1) children⟩]

/-- The nodes of a list of trees with their ranks, each after its children. -/
def rankedAll (next : Nat) : List (Tree α) → List (RankedNode α)
  | [] => []
  | tree :: rest => tree.ranked next ++ rankedAll (next + tree.nodes.length) rest

end

mutual

/-- The rank of a node is its place among the nodes in preorder. -/
theorem nodes_at_rank (before after : List (TreeNode α)) :
    ∀ tree : Tree α, ∀ node ∈ tree.ranked before.length,
      (before ++ (tree.nodes ++ after))[node.rank]?.map TreeNode.shape = some node.shape
  | ref target => by
      intro node member
      rw [ranked] at member
      cases member
  | node key id shape children => by
      intro node member
      rw [ranked, List.mem_append, List.mem_singleton] at member
      rw [nodes, List.cons_append]
      rcases member with below | rfl
      · have inside := nodesAll_at_rank (before ++ [⟨key, id, shape⟩]) after children node
        rw [List.length_append, List.length_singleton, List.append_assoc] at inside
        exact inside below
      · rw [List.getElem?_append_right le_rfl, Nat.sub_self]
        rfl

theorem nodesAll_at_rank (before after : List (TreeNode α)) :
    ∀ trees : List (Tree α), ∀ node ∈ rankedAll before.length trees,
      (before ++ (nodesAll trees ++ after))[node.rank]?.map TreeNode.shape = some node.shape
  | [] => by
      intro node member
      rw [rankedAll] at member
      cases member
  | tree :: rest => by
      intro node member
      rw [rankedAll, List.mem_append] at member
      rw [nodesAll, List.append_assoc]
      rcases member with here | later
      · exact nodes_at_rank before (nodesAll rest ++ after) tree node here
      · have following := nodesAll_at_rank (before ++ tree.nodes) after rest node
        rw [List.length_append, List.append_assoc] at following
        exact following later

end

/-- The tree denotes the node of a rank, where the ids are those of all nodes by rank. -/
inductive Denotes (ids : List String) (next : Nat) : Tree α → Nat → Prop where
  | earlier {target : String} {rank : Nat} (before : rank < next)
      (carries : ids[rank]? = some target) : Denotes ids next (.ref target) rank
  | own {key id : Option String} {shape : Shape α} {children : List (Tree α)} :
      Denotes ids next (.node key id shape children) next

end Tree

/-- The record stands for the node: it has the explicit name if there is one, and all else but the
ends of an arrow is that of the shape. -/
structure TreeNode.StandsAs [Scalar α] (node : TreeNode α) (record : Record α) : Prop where
  named : ∀ field name, NodeName.explicit? node.key node.id = some (field, name) → record.id = name
  shaped : { record with fromId := none, toId := none } = node.shape.record record.id

/-- The operator is that of a shape, whose own record and whose children have the given ranks. The
first slot of a rank is four times the rank. -/
inductive Shape.Lays (rank : Nat) (children : List Nat) : Shape α → Operator α → Prop where
  | stack (axis : Axis) (spacing : α) (alignment : Alignment) :
      Lays rank children (.stack axis spacing alignment)
        (.stack axis (children.map (4 * ·)) (4 * rank) spacing alignment)
  | near (axis : Axis) :
      Lays rank children (.align axis .start)
        (.alignNear (children.map fun child => 4 * child + axis.position))
  | far (axis : Axis) :
      Lays rank children (.align axis .finish)
        (.alignFar (children.map fun child => ⟨4 * child + axis.position, 4 * child + axis.extent⟩))
  | mean (axis : Axis) (free : axis = .y ∨ children.length < 2) :
      Lays rank children (.align axis .center)
        (.alignCenter
          (children.map fun child => ⟨4 * child + axis.position, 4 * child + axis.extent⟩))
  | anchored {others : List Nat} {last : Nat} (split : children = others ++ [last])
      (several : others ≠ []) :
      Lays rank children (.align .x .center)
        (.centerOn ⟨4 * last, 4 * last + 2⟩
          (others.map fun child => ⟨4 * child, 4 * child + 2⟩))
  | distribute (axis : Axis) (spacing : α) :
      Lays rank children (.distribute axis spacing)
        (.distribute (children.map fun child => ⟨4 * child + axis.position, 4 * child + axis.extent⟩)
          spacing)
  | background (padding : α) (style : Style α) {child : Nat} (first : child ∈ children.head?) :
      Lays rank children (.background padding style) (.background (4 * child) (4 * rank) padding)

namespace RankedNode

/-- The node calls for an operator: it stacks, aligns or distributes, or it is a background with a
child. -/
def callsForOperator (node : RankedNode α) : Bool :=
  match node.shape with
  | .stack .. => true
  | .align .. => true
  | .distribute .. => true
  | .background .. => !node.children.isEmpty
  | _ => false

/-- The operator is that of the node, on the node's own slots and those of the nodes that its
children denote, in their order. -/
def LaidBy (ids : List String) (node : RankedNode α) (operator : Operator α) : Prop :=
  ∃ children, List.Forall₂ (fun child rank => child.2.Denotes ids child.1 rank) node.children
    children ∧ node.shape.Lays node.rank children operator

end RankedNode

/-! ## Operators of shapes -/

namespace Shape

variable {shape : Shape α} {rank : Nat} {children : List Nat}

theorem lays_align (axis : Axis) (alignment : Alignment) :
    (Shape.align axis alignment : Shape α).Lays rank children
      (alignOperator axis alignment children) := by
  cases alignment with
  | start => exact .near axis
  | finish => exact .far axis
  | center =>
      cases axis with
      | y => exact .mean .y (.inl rfl)
      | x =>
          rcases List.eq_nil_or_concat' children with rfl | ⟨others, last, rfl⟩
          · exact .mean .x (.inr Nat.zero_lt_two)
          · cases others with
            | nil => exact .mean .x (.inr Nat.one_lt_two)
            | cons first rest =>
                rw [alignOperator_anchored]
                exact .anchored rfl (List.cons_ne_nil first rest)

/-- The operator that compilation builds is the one that the ranks say. -/
theorem lays_of_operator? {operator : Operator α}
    (h : shape.operator? rank children = some operator) : shape.Lays rank children operator := by
  cases shape with
  | stack axis spacing alignment =>
      cases h
      exact .stack axis spacing alignment
  | align axis alignment =>
      cases h
      exact lays_align axis alignment
  | distribute axis spacing =>
      cases h
      exact .distribute axis spacing
  | background padding style =>
      obtain ⟨child, first, rfl⟩ := Option.map_eq_some_iff.mp h
      exact .background padding style first
  | _ => cases h

/-- Whether a node calls for an operator can be told from its shape and its children. -/
theorem operator?_eq_none_iff {node : RankedNode α} (same : children.length = node.children.length) :
    node.shape.operator? rank children = none ↔ node.callsForOperator = false := by
  obtain ⟨own, shape, below⟩ := node
  cases shape with
  | background padding style =>
      cases children <;> cases below <;> simp_all [operator?, RankedNode.callsForOperator]
  | _ => simp [operator?, RankedNode.callsForOperator]

end Shape

/-! ## Named trees have the same nodes -/

/-- The node of the named tree comes from the node of the tree. -/
structure TreeNode.Becomes (node : TreeNode α) (named : NamedNode α) : Prop where
  name : ∀ field name, NodeName.explicit? node.key node.id = some (field, name) → named.name = name
  shape : named.shape = node.shape

theorem NodeName.eq_of_choose {used : List String} {key id type : Option String} {path : TreePath}
    {name : String} (h : NodeName.choose used key id type path = .ok name) {field : NameField}
    {explicit : String} (found : NodeName.explicit? key id = some (field, explicit)) :
    name = explicit := by
  rw [choose, found] at h
  simp only at h
  split at h
  · cases h
  · cases h
    rfl

namespace Tree

mutual

theorem nodes_named {path : TreePath} {used : List String} :
    ∀ {tree : Tree α} {result : NamedTree α}, tree.named path used = .ok result →
      List.Forall₂ TreeNode.Becomes tree.nodes result.preorder
  | ref target, result, h => by
      obtain ⟨_, rfl⟩ := named_ref_eq_ok h
      rw [nodes, NamedTree.preorder]
      exact .nil
  | node key id shape children, result, h => by
      obtain ⟨name, results, chosen, others, rfl⟩ := named_node_eq_ok h
      rw [nodes, NamedTree.preorder]
      refine .cons ⟨?_, rfl⟩ (nodesAll_named others)
      intro field explicit found
      exact NodeName.eq_of_choose chosen found

theorem nodesAll_named {path : TreePath} {index : Nat} {used : List String} :
    ∀ {trees : List (Tree α)} {results : List (NamedTree α)},
      namedAll path index used trees = .ok results →
      List.Forall₂ TreeNode.Becomes (nodesAll trees) (NamedTree.preorderAll results)
  | [], results, h => by
      rw [namedAll] at h
      cases h
      rw [nodesAll, NamedTree.preorderAll]
      exact .nil
  | tree :: rest, results, h => by
      obtain ⟨first, others, here, later, rfl⟩ := namedAll_cons_eq_ok h
      rw [nodesAll, NamedTree.preorderAll]
      exact List.rel_append (nodes_named here) (nodesAll_named later)

end

theorem length_names {path : TreePath} {used : List String} {tree : Tree α} {result : NamedTree α}
    (h : tree.named path used = .ok result) : result.names.length = tree.nodes.length := by
  rw [NamedTree.names, List.length_map]
  exact (nodes_named h).length_eq.symm

end Tree

/-- The ranked node of the tree has become the node of the named tree, where all names by rank are
as given. -/
structure RankedNode.Becomes (names : List String) (node : RankedNode α) (named : NamedNode α) :
    Prop where
  shape : named.shape = node.shape
  rank : names.idxOf named.name = node.rank
  children : List.Forall₂ (fun child name => child.2.Denotes names child.1 (names.idxOf name))
    node.children named.children

namespace Tree

/-- The chosen name of a node stands at the rank of the node. -/
theorem idxOf_of_choose {used names following : List String} {key id type : Option String}
    {path : TreePath} {name : String} (chosen : NodeName.choose used key id type path = .ok name)
    (start : used ++ name :: following <+: names) : names.idxOf name = used.length := by
  obtain ⟨rest, rfl⟩ := start
  have absent := NodeName.choose_not_mem chosen
  rw [List.append_assoc, List.idxOf_append_of_notMem absent]
  simp

theorem denotes_named {path : TreePath} {used names : List String} {tree : Tree α}
    {result : NamedTree α} (h : tree.named path used = .ok result)
    (start : used ++ result.names <+: names) :
    tree.Denotes names used.length (names.idxOf result.name) := by
  cases tree with
  | ref target =>
      obtain ⟨known, rfl⟩ := named_ref_eq_ok h
      obtain ⟨rest, rfl⟩ := start
      rw [NamedTree.name, List.append_assoc, List.idxOf_append_of_mem known]
      have before := List.idxOf_lt_length_of_mem known
      refine .earlier before ?_
      rw [List.getElem?_append_left before]
      exact List.getElem?_idxOf known
  | node key id shape children =>
      obtain ⟨name, results, chosen, _, rfl⟩ := named_node_eq_ok h
      rw [NamedTree.names_node] at start
      rw [NamedTree.name, idxOf_of_choose chosen start]
      exact .own

theorem denotes_namedAll {path : TreePath} {names : List String} {trees : List (Tree α)} :
    ∀ {index : Nat} {used : List String} {results : List (NamedTree α)},
      namedAll path index used trees = .ok results → used ++ NamedTree.namesAll results <+: names →
      List.Forall₂ (fun child name => child.2.Denotes names child.1 (names.idxOf name))
        (rankedChildren used.length trees) (results.map NamedTree.name) := by
  induction trees with
  | nil =>
      intro index used results h _
      rw [namedAll] at h
      cases h
      exact .nil
  | cons tree rest ih =>
      intro index used results h start
      obtain ⟨first, others, here, later, rfl⟩ := namedAll_cons_eq_ok h
      rw [NamedTree.namesAll_cons, ← List.append_assoc] at start
      have next := ih later start
      rw [List.length_append, length_names here] at next
      exact .cons (denotes_named here ((List.prefix_append _ _).trans start)) next

mutual

/-- Naming keeps the nodes and their ranks. -/
theorem ranked_named {path : TreePath} {used names : List String} :
    ∀ {tree : Tree α} {result : NamedTree α}, tree.named path used = .ok result →
      used ++ result.names <+: names →
      List.Forall₂ (RankedNode.Becomes names) (tree.ranked used.length) result.postorder
  | ref target, result, h, _ => by
      obtain ⟨_, rfl⟩ := named_ref_eq_ok h
      rw [ranked, NamedTree.postorder]
      exact .nil
  | node key id shape children, result, h, start => by
      obtain ⟨name, results, chosen, others, rfl⟩ := named_node_eq_ok h
      rw [NamedTree.names_node] at start
      have rank := idxOf_of_choose chosen start
      rw [List.append_cons] at start
      have below := rankedAll_named others start
      have children := denotes_namedAll others start
      rw [List.length_append, List.length_singleton] at below children
      rw [ranked, NamedTree.postorder]
      exact List.rel_append below (.cons ⟨rfl, rank, children⟩ .nil)

theorem rankedAll_named {path : TreePath} {index : Nat} {used names : List String} :
    ∀ {trees : List (Tree α)} {results : List (NamedTree α)},
      namedAll path index used trees = .ok results →
      used ++ NamedTree.namesAll results <+: names →
      List.Forall₂ (RankedNode.Becomes names) (rankedAll used.length trees)
        (NamedTree.postorderAll results)
  | [], results, h, _ => by
      rw [namedAll] at h
      cases h
      rw [rankedAll, NamedTree.postorderAll]
      exact .nil
  | tree :: rest, results, h, start => by
      obtain ⟨first, others, here, later, rfl⟩ := namedAll_cons_eq_ok h
      rw [NamedTree.namesAll_cons, ← List.append_assoc] at start
      have next := rankedAll_named later start
      rw [List.length_append, length_names here] at next
      rw [rankedAll, NamedTree.postorderAll]
      exact List.rel_append (ranked_named here ((List.prefix_append _ _).trans start)) next

end

end Tree

/-! ## Compiled scenes -/

theorem RankedNode.Becomes.operator? {names : List String} {node : RankedNode α}
    {named : NamedNode α} (becomes : node.Becomes names named) :
    (node.callsForOperator = false ∧ named.operator? names = none) ∨
      node.callsForOperator = true ∧
        ∃ operator, named.operator? names = some operator ∧ node.LaidBy names operator := by
  have count : (named.children.map names.idxOf).length = node.children.length := by
    rw [List.length_map]
    exact becomes.children.length_eq.symm
  have built : named.operator? names =
      node.shape.operator? node.rank (named.children.map names.idxOf) := by
    rw [NamedNode.operator?, becomes.shape, becomes.rank]
  rw [built]
  cases found : node.shape.operator? node.rank (named.children.map names.idxOf) with
  | none => exact .inl ⟨(Shape.operator?_eq_none_iff count).mp found, rfl⟩
  | some operator =>
      have called : node.callsForOperator ≠ false := by
        intro uncalled
        rw [(Shape.operator?_eq_none_iff count).mpr uncalled] at found
        cases found
      refine .inr ⟨Bool.eq_true_of_not_eq_false called, operator, rfl, ?_⟩
      exact ⟨_, List.forall₂_map_right_iff.mpr becomes.children, Shape.lays_of_operator? found⟩

/-- Nodes that call for no operator have none. -/
theorem forall₂_laidBy {names : List String} {nodes : List (RankedNode α)}
    {named : List (NamedNode α)} (becomes : List.Forall₂ (RankedNode.Becomes names) nodes named) :
    List.Forall₂ (RankedNode.LaidBy names) (nodes.filter RankedNode.callsForOperator)
      (named.filterMap (NamedNode.operator? names)) := by
  induction becomes with
  | nil => exact .nil
  | cons first _ ih =>
      obtain ⟨uncalled, none⟩ | ⟨called, operator, found, laid⟩ := first.operator?
      · rwa [List.filter_cons_of_neg (by simp [uncalled]), List.filterMap_cons_none none]
      · rw [List.filter_cons_of_pos called, List.filterMap_cons_some found]
        exact .cons laid ih

section Compiled

variable [Scalar α]

/-- Only the ends of an arrow come from elsewhere than the shape. -/
theorem NamedNode.record_apart_from_ends (node : NamedNode α) :
    { node.record with fromId := none, toId := none } = node.shape.record node.record.id := by
  obtain ⟨name, shape, children⟩ := node
  cases shape with
  | arrow style => cases children with
    | nil => rfl
    | cons source rest => cases rest <;> rfl
  | _ => rfl

theorem TreeNode.Becomes.standsAs {node : TreeNode α} {named : NamedNode α}
    (becomes : node.Becomes named) : node.StandsAs named.record := by
  constructor
  · intro field name found
    rw [NamedNode.id_record]
    exact becomes.name field name found
  · rw [← becomes.shape]
    exact NamedNode.record_apart_from_ends named

/-- In a compiled scene all ids differ. The records are those of the nodes in preorder, and the
operators are those of the nodes that call for one in postorder, each on the slots of its node and
of the nodes that the children denote. A rank is a place in preorder. -/
theorem compile_resolves_ranks {tree : Tree α} {scene : Scene α}
    (compiled : tree.compile = .ok scene) :
    scene.ids.Nodup ∧ List.Forall₂ TreeNode.StandsAs tree.nodes scene.records ∧
      (∀ node ∈ tree.ranked 0, tree.nodes[node.rank]?.map TreeNode.shape = some node.shape) ∧
      List.Forall₂ (RankedNode.LaidBy scene.ids)
        ((tree.ranked 0).filter RankedNode.callsForOperator) scene.operators := by
  obtain ⟨result, naming, well, rfl⟩ := Tree.exists_named_of_compile compiled
  rw [NamedTree.ids_scene]
  refine ⟨well.distinct, ?_, ?_, ?_⟩
  · rw [NamedTree.scene, List.forall₂_map_right_iff]
    exact (Tree.nodes_named naming).imp fun node named becomes => becomes.standsAs
  · intro node member
    have placed := Tree.nodes_at_rank [] [] tree node member
    rwa [List.nil_append, List.append_nil] at placed
  · exact forall₂_laidBy (Tree.ranked_named naming List.prefix_rfl)

end Compiled

/-- A column of two rectangles, whose centers are aligned with that of the column, and an empty
background. -/
def alignedColumn : Tree ℚ :=
  .node none none .group
    [.node none (some "column") (.stack .y 2 .start)
      [.node (some "a") none (.rect 0 0 10 4 ⟨none, none, none⟩) [],
        .node none (some "b") (.rect 0 0 6 8 ⟨none, none, none⟩) []],
      .node none none (.align .x .center) [.ref "a", .ref "b", .ref "column"],
      .node none none (.background 3 ⟨none, none, none⟩) []]

/-- The operators of the column and of the alignment, which is anchored at the column, stand on the
ranks 1 to 3. -/
theorem compile_resolves_alignedColumn :
    ∃ scene, alignedColumn.compile = .ok scene ∧
      scene.operators = [.stack .y [8, 12] 4 2 .start, .centerOn ⟨4, 6⟩ [⟨8, 10⟩, ⟨12, 14⟩]] ∧
      scene.ids.Nodup ∧ List.Forall₂ TreeNode.StandsAs alignedColumn.nodes scene.records ∧
      (∀ node ∈ alignedColumn.ranked 0,
        alignedColumn.nodes[node.rank]?.map TreeNode.shape = some node.shape) ∧
      List.Forall₂ (RankedNode.LaidBy scene.ids)
        ((alignedColumn.ranked 0).filter RankedNode.callsForOperator) scene.operators := by
  obtain ⟨scene, compiled, operators⟩ : ∃ scene, alignedColumn.compile = .ok scene ∧
      scene.operators =
        [.stack .y [8, 12] 4 2 .start, .centerOn ⟨4, 6⟩ [⟨8, 10⟩, ⟨12, 14⟩]] := ⟨_, rfl, rfl⟩
  exact ⟨scene, compiled, operators, compile_resolves_ranks compiled⟩

end SceneLayout
