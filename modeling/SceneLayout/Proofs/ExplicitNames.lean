import SceneLayout.Proofs.Acceptance
import SceneLayout.Proofs.Ranks

/-!
# Trees with explicit names

Where every node has a name of its own, naming does not look at places and makes up no names. It
asks only which of the names that stand in the tree are taken, and treats them as opaque: an
injective renaming of the tree renames what naming gives, a named tree or a refusal.

Main statements: `named_rename`, `namedAll_congr`.
-/

namespace SceneLayout

universe u

variable {α : Type u}

/-! ## Names that stand in a tree -/

/-- The node has a name of its own: a key or an id that is not empty. -/
def TreeNode.HasName (node : TreeNode α) : Prop :=
  ∃ name, name ≠ "" ∧ (node.key = some name ∨ node.id = some name)

namespace Tree

mutual

/-- The texts that stand in a tree as a key, an id or the target of a reference. -/
def mentioned : Tree α → List String
  | ref target => [target]
  | node key id _ children => key.toList ++ id.toList ++ mentionedAll children

/-- The texts that stand in a list of trees as a key, an id or the target of a reference. -/
def mentionedAll : List (Tree α) → List String
  | [] => []
  | tree :: rest => tree.mentioned ++ mentionedAll rest

end

theorem nodesAll_append (trees others : List (Tree α)) :
    nodesAll (trees ++ others) = nodesAll trees ++ nodesAll others := by
  induction trees with
  | nil => rw [List.nil_append, nodesAll, List.nil_append]
  | cons tree rest ih => rw [List.cons_append, nodesAll, ih, nodesAll, List.append_assoc]

theorem mentionedAll_append (trees others : List (Tree α)) :
    mentionedAll (trees ++ others) = mentionedAll trees ++ mentionedAll others := by
  induction trees with
  | nil => rw [List.nil_append, mentionedAll, List.nil_append]
  | cons tree rest ih =>
      rw [List.cons_append, mentionedAll, ih, mentionedAll, List.append_assoc]

mutual

/-- The key and the id of a node of the tree stand in it. -/
theorem mem_mentioned {node : TreeNode α} {name : String}
    (stands : node.key = some name ∨ node.id = some name) :
    ∀ {tree : Tree α}, node ∈ tree.nodes → name ∈ tree.mentioned
  | ref target, member => by
      rw [nodes] at member
      cases member
  | .node key id shape children, member => by
      rw [nodes, List.mem_cons] at member
      rw [mentioned, List.append_assoc, List.mem_append, List.mem_append]
      rcases member with rfl | below
      · rcases stands with rfl | rfl
        · exact .inl (Option.mem_toList.mpr rfl)
        · exact .inr (.inl (Option.mem_toList.mpr rfl))
      · exact .inr (.inr (mem_mentionedAll stands below))

theorem mem_mentionedAll {node : TreeNode α} {name : String}
    (stands : node.key = some name ∨ node.id = some name) :
    ∀ {trees : List (Tree α)}, node ∈ nodesAll trees → name ∈ mentionedAll trees
  | [], member => by
      rw [nodesAll] at member
      cases member
  | tree :: rest, member => by
      rw [nodesAll, List.mem_append] at member
      rw [mentionedAll, List.mem_append]
      exact member.imp (mem_mentioned stands) (mem_mentionedAll stands)

end

end Tree

namespace NodeName

variable {key id : Option String}

theorem exists_explicit? (h : ∃ name, name ≠ "" ∧ (key = some name ∨ id = some name)) :
    ∃ field name, explicit? key id = some (field, name) := by
  obtain ⟨name, written, stands⟩ := h
  cases ofKey : explicit?.nonEmpty key with
  | some own => exact ⟨.key, own, by rw [explicit?, ofKey]⟩
  | none =>
      have isId : id = some name := by
        rcases stands with rfl | isId
        · rcases Visit.nonEmpty_eq_none_iff.mp ofKey with absent | empty
          · cases absent
          · exact absurd (Option.some.inj empty) written
        · exact isId
      have found := Visit.nonEmpty_eq_some_iff.mpr ⟨isId, written⟩
      exact ⟨.id, name, by rw [explicit?, ofKey, found]; rfl⟩

theorem stands_of_explicit? {field : NameField} {name : String}
    (found : explicit? key id = some (field, name)) : key = some name ∨ id = some name := by
  rcases (Visit.explicit?_eq_some_iff.mp found).2 with ⟨_, isKey⟩ | ⟨_, _, isId⟩
  · exact .inl isKey
  · exact .inr isId

/-- A node with an explicit name gets it, unless it is taken. -/
theorem choose_of_explicit? {field : NameField} {name : String}
    (found : explicit? key id = some (field, name)) (used : List String) (type : Option String)
    (path : TreePath) :
    choose used key id type path =
      if name ∈ used then .error (.duplicateName field name) else .ok name := by
  simp only [choose, found, List.contains_iff_mem]

end NodeName

theorem exists_left_of_forall₂ {β γ : Type*} {related : β → γ → Prop} {items : List β}
    {others : List γ} (h : List.Forall₂ related items others) {other : γ}
    (member : other ∈ others) : ∃ item ∈ items, related item other := by
  induction h with
  | nil => cases member
  | cons first _ ih =>
      rcases List.mem_cons.mp member with rfl | later
      · exact ⟨_, List.mem_cons_self, first⟩
      · obtain ⟨item, listed, holds⟩ := ih later
        exact ⟨item, List.mem_cons_of_mem _ listed, holds⟩

/-- The names that naming gives to a list of trees stand in them. -/
theorem Tree.namesAll_subset_mentionedAll {path : TreePath} {index : Nat} {used : List String}
    {trees : List (Tree α)} {results : List (NamedTree α)}
    (named : namedAll path index used trees = .ok results)
    (explicit : ∀ node ∈ nodesAll trees, node.HasName) :
    NamedTree.namesAll results ⊆ mentionedAll trees := by
  intro name given
  obtain ⟨result, listed, rfl⟩ := List.mem_map.mp given
  obtain ⟨node, member, becomes⟩ := exists_left_of_forall₂ (nodesAll_named named) listed
  obtain ⟨field, own, found⟩ := NodeName.exists_explicit? (explicit node member)
  rw [becomes.name field own found]
  exact mem_mentionedAll (NodeName.stands_of_explicit? found) member

/-! ## Renaming -/

/-- The function tells names apart and keeps the empty text, which is no name. -/
structure Renames (f : String → String) : Prop where
  injective : Function.Injective f
  void : f "" = ""

theorem Renames.id : Renames id := ⟨Function.injective_id, rfl⟩

/-- The refusal, said of renamed names. -/
def CompileError.rename (f : String → String) : CompileError → CompileError
  | duplicateName field name => .duplicateName field (f name)
  | unknownTarget target => .unknownTarget (f target)

namespace Tree

mutual

/-- Applies a function to every key, every id and every target of a tree. -/
def rename (f : String → String) : Tree α → Tree α
  | ref target => .ref (f target)
  | node key id shape children => .node (key.map f) (id.map f) shape (renameAll f children)

/-- Applies a function to every key, every id and every target of a list of trees. -/
def renameAll (f : String → String) : List (Tree α) → List (Tree α)
  | [] => []
  | tree :: rest => tree.rename f :: renameAll f rest

end

end Tree

namespace NamedTree

mutual

/-- Applies a function to every name of a named tree. -/
def rename (f : String → String) : NamedTree α → NamedTree α
  | ref name => .ref (f name)
  | node name shape children => .node (f name) shape (renameAll f children)

/-- Applies a function to every name of a list of named trees. -/
def renameAll (f : String → String) : List (NamedTree α) → List (NamedTree α)
  | [] => []
  | tree :: rest => tree.rename f :: renameAll f rest

end

end NamedTree

/-- Applies a function to the name of a node and to the names that its children denote. -/
def NamedNode.rename (f : String → String) (node : NamedNode α) : NamedNode α :=
  ⟨f node.name, node.shape, node.children.map f⟩

namespace NamedTree

variable (f : String → String)

theorem name_rename (tree : NamedTree α) : (tree.rename f).name = f tree.name := by
  cases tree <;> rw [rename, name, name]

theorem map_name_renameAll (trees : List (NamedTree α)) :
    (renameAll f trees).map name = (trees.map name).map f := by
  induction trees with
  | nil => rw [renameAll, List.map_nil, List.map_nil]
  | cons tree rest ih =>
      rw [renameAll, List.map_cons, ih, name_rename, List.map_cons, List.map_cons]

mutual

theorem preorder_rename : ∀ tree : NamedTree α,
    (tree.rename f).preorder = tree.preorder.map (NamedNode.rename f)
  | ref name => by
      rw [rename, preorder, preorder, List.map_nil]
  | node name shape children => by
      rw [rename, preorder, preorder, List.map_cons, preorderAll_renameAll children,
        map_name_renameAll, NamedNode.rename]

theorem preorderAll_renameAll : ∀ trees : List (NamedTree α),
    preorderAll (renameAll f trees) = (preorderAll trees).map (NamedNode.rename f)
  | [] => by
      rw [renameAll, preorderAll, List.map_nil]
  | tree :: rest => by
      rw [renameAll, preorderAll, preorderAll, List.map_append, preorder_rename tree,
        preorderAll_renameAll rest]

end

mutual

theorem postorder_rename : ∀ tree : NamedTree α,
    (tree.rename f).postorder = tree.postorder.map (NamedNode.rename f)
  | ref name => by
      rw [rename, postorder, postorder, List.map_nil]
  | node name shape children => by
      rw [rename, postorder, postorder, List.map_append, List.map_singleton,
        postorderAll_renameAll children, map_name_renameAll, NamedNode.rename]

theorem postorderAll_renameAll : ∀ trees : List (NamedTree α),
    postorderAll (renameAll f trees) = (postorderAll trees).map (NamedNode.rename f)
  | [] => by
      rw [renameAll, postorderAll, List.map_nil]
  | tree :: rest => by
      rw [renameAll, postorderAll, postorderAll, List.map_append, postorder_rename tree,
        postorderAll_renameAll rest]

end

theorem names_rename (tree : NamedTree α) : (tree.rename f).names = tree.names.map f := by
  rw [names, preorder_rename, List.map_map, names, List.map_map]
  rfl

end NamedTree

/-! ## Naming a renamed tree -/

section Renaming

variable {f : String → String} (renames : Renames f)
include renames

theorem Renames.isEmpty_eq (name : String) : (f name).isEmpty = name.isEmpty := by
  rw [Bool.eq_iff_iff, String.isEmpty_iff, String.isEmpty_iff,
    renames.injective.eq_iff' renames.void]

theorem NodeName.nonEmpty_map (name : Option String) :
    explicit?.nonEmpty (name.map f) = (explicit?.nonEmpty name).map f := by
  cases name with
  | none => rfl
  | some text =>
      simp only [explicit?.nonEmpty, Option.map_some, Option.filter_some, renames.isEmpty_eq]
      cases text.isEmpty <;> rfl

theorem NodeName.explicit?_map (key id : Option String) :
    explicit? (key.map f) (id.map f) =
      (explicit? key id).map fun entry => (entry.1, f entry.2) := by
  rw [explicit?, explicit?, nonEmpty_map renames, nonEmpty_map renames]
  cases explicit?.nonEmpty key with
  | some name => rfl
  | none => cases explicit?.nonEmpty id <;> rfl

/-- Names that are taken in the same way stay so when a name and its image are added. -/
theorem Renames.mem_append_iff {used used' : List String}
    {name : String} (same : f name ∈ used' ↔ name ∈ used) (names : List String) :
    f name ∈ used' ++ names.map f ↔ name ∈ used ++ names := by
  rw [List.mem_append, List.mem_append, same, List.mem_map_of_injective renames.injective]

namespace Tree

mutual

/-- Naming a renamed tree with explicit names renames what naming gives, whatever the place. Of the
names that are taken, only those matter that stand in the tree. -/
theorem named_rename (path path' : TreePath) {used used' : List String} :
    ∀ {tree : Tree α}, (∀ node ∈ tree.nodes, node.HasName) →
      (∀ name ∈ tree.mentioned, f name ∈ used' ↔ name ∈ used) →
      (tree.rename f).named path' used' =
        ((tree.named path used).map (NamedTree.rename f)).mapError (CompileError.rename f)
  | ref target, _, same => by
      have known := same target (by rw [mentioned]; exact List.mem_singleton_self target)
      simp only [rename, named, List.contains_iff_mem, known]
      by_cases member : target ∈ used
      · simp only [if_pos member]
        rfl
      · simp only [if_neg member]
        rfl
  | node key id shape children, explicit, same => by
      rw [nodes, List.forall_mem_cons] at explicit
      rw [mentioned] at same
      obtain ⟨field, name, found⟩ := NodeName.exists_explicit? explicit.1
      have stands : name ∈ key.toList ++ id.toList := by
        rw [List.mem_append, Option.mem_toList, Option.mem_toList]
        exact NodeName.stands_of_explicit? found
      have taken := same name (List.mem_append_left _ stands)
      have found' : NodeName.explicit? (key.map f) (id.map f) = some (field, f name) := by
        rw [NodeName.explicit?_map renames, found]
        rfl
      rw [rename, named, named, NodeName.choose_of_explicit? found,
        NodeName.choose_of_explicit? found']
      simp only [taken]
      by_cases member : name ∈ used
      · simp only [if_pos member]
        rfl
      · have below := namedAll_rename path path' 0 0 explicit.2 fun other mentioned =>
          renames.mem_append_iff (same other (List.mem_append_right _ mentioned)) [name]
        rw [List.map_singleton] at below
        simp only [if_neg member, below]
        cases namedAll path 0 (used ++ [name]) children <;> rfl

theorem namedAll_rename (path path' : TreePath) (index index' : Nat) {used used' : List String} :
    ∀ {trees : List (Tree α)}, (∀ node ∈ nodesAll trees, node.HasName) →
      (∀ name ∈ mentionedAll trees, f name ∈ used' ↔ name ∈ used) →
      namedAll path' index' used' (renameAll f trees) =
        ((namedAll path index used trees).map (NamedTree.renameAll f)).mapError
          (CompileError.rename f)
  | [], _, _ => rfl
  | tree :: rest, explicit, same => by
      rw [nodesAll, List.forall_mem_append] at explicit
      rw [mentionedAll, List.forall_mem_append] at same
      have here := named_rename (path.child index) (path'.child index') explicit.1 same.1
      rw [renameAll, namedAll, namedAll, here]
      cases tree.named (path.child index) used with
      | error error => rfl
      | ok first =>
          have later := namedAll_rename path path' (index + 1) (index' + 1) explicit.2
            fun other mentioned =>
              renames.mem_append_iff (same.2 other mentioned) first.names
          rw [← first.names_rename] at later
          simp only [Except.map, Except.mapError, later]
          cases namedAll path (index + 1) (used ++ first.names) rest <;> rfl

end

end Tree

end Renaming

/-! ## Naming elsewhere -/

namespace Tree

mutual

theorem rename_id : ∀ tree : Tree α, tree.rename id = tree
  | ref target => by
      rw [rename, id]
  | node key id shape children => by
      rw [rename, Option.map_id_fun, renameAll_id children]
      rfl

theorem renameAll_id : ∀ trees : List (Tree α), renameAll id trees = trees
  | [] => by
      rw [renameAll]
  | tree :: rest => by
      rw [renameAll, rename_id tree, renameAll_id rest]

end

end Tree

namespace NamedTree

mutual

theorem rename_id : ∀ tree : NamedTree α, tree.rename id = tree
  | ref name => by
      rw [rename, id]
  | node name shape children => by
      rw [rename, id, renameAll_id children]

theorem renameAll_id : ∀ trees : List (NamedTree α), renameAll id trees = trees
  | [] => by
      rw [renameAll]
  | tree :: rest => by
      rw [renameAll, rename_id tree, renameAll_id rest]

end

end NamedTree

/-- Trees with explicit names are named alike in any place, and after any names of which the same
ones stand in the trees. -/
theorem Tree.namedAll_congr (path path' : TreePath) (index index' : Nat) {used used' : List String}
    {trees : List (Tree α)} (explicit : ∀ node ∈ nodesAll trees, node.HasName)
    (same : ∀ name ∈ mentionedAll trees, name ∈ used' ↔ name ∈ used) :
    namedAll path' index' used' trees = namedAll path index used trees := by
  have renamed := namedAll_rename .id path path' index index' explicit same
  rw [renameAll_id] at renamed
  rw [renamed]
  cases namedAll path index used trees with
  | error error => cases error <;> rfl
  | ok results => simp only [Except.map, Except.mapError, NamedTree.renameAll_id]

end SceneLayout
