import Mathlib.Data.List.Nodup
import Mathlib.Data.List.Perm.Subperm
import SceneLayout.Scene.Compile

/-!
# The names of a tree

Compilation names the nodes of a tree in preorder. Naming can be told apart from the
rest of it: a named tree has the names that its nodes get and, at its references, the
names that were known there. The chosen name is never a taken one, so all names of
nodes differ, and every node is the parent of nodes that are named.

Main statements: `choose_not_mem`, `nodup_names`, `children_subset`.
-/

namespace SceneLayout

universe u

/-! ## Free names -/

namespace NodeName

/-- Numbers are written in different ways. -/
theorem repr_injective {m n : Nat} (h : m.repr = n.repr) : m = n := by
  have digits : Nat.toDigits 10 m = Nat.toDigits 10 n := by
    rw [← Nat.toList_repr, ← Nat.toList_repr, h]
  rw [← @Nat.ofDigitChars_ten_toDigits m, digits, Nat.ofDigitChars_ten_toDigits]

theorem candidate_injective (base : String) : Function.Injective (candidate base) := by
  have longer : ∀ number, base ≠ candidate base (number + 1) := by
    intro number same
    have lengths := congrArg String.length same
    simp only [candidate, String.length_append] at lengths
    have dash : "-".length = 1 := rfl
    omega
  intro first second same
  cases first with
  | zero =>
      cases second with
      | zero => rfl
      | succ second => exact absurd same (longer second)
  | succ first =>
      cases second with
      | zero => exact absurd same.symm (longer first)
      | succ second => exact repr_injective ((String.append_right_inj _).mp same)

/-- If the search ends at a name that is taken, then so are all candidates that it has tried. -/
theorem candidate_mem_of_firstFreeFrom_mem {used : List String} {base : String} {left number : Nat}
    (h : firstFreeFrom used base left number ∈ used) :
    ∀ k ≤ left, candidate base (number + k) ∈ used := by
  induction left generalizing number with
  | zero =>
      intro k le
      rwa [Nat.le_zero.mp le, Nat.add_zero]
  | succ left ih =>
      rw [firstFreeFrom] at h
      by_cases taken : used.contains (candidate base number)
      · rw [if_pos taken] at h
        intro k le
        cases k with
        | zero => exact List.contains_iff_mem.mp taken
        | succ k =>
            have later := ih h k (by omega)
            rwa [Nat.add_right_comm] at later
      · rw [if_neg taken] at h
        exact absurd (List.contains_iff_mem.mpr h) taken

/-- There are more candidates than names that are taken. -/
theorem firstFree_not_mem (used : List String) (base : String) : firstFree used base ∉ used := by
  intro taken
  have tried := candidate_mem_of_firstFreeFrom_mem taken
  have distinct : ((List.range (used.length + 1)).map (candidate base)).Nodup :=
    List.nodup_range.map (candidate_injective base)
  have among : (List.range (used.length + 1)).map (candidate base) ⊆ used := by
    intro name member
    obtain ⟨k, inRange, rfl⟩ := List.mem_map.mp member
    have small := List.mem_range.mp inRange
    have here := tried k (by omega)
    rwa [Nat.zero_add] at here
  have fewer := (List.subperm_of_subset distinct among).length_le
  rw [List.length_map, List.length_range] at fewer
  omega

/-- The name of a node is not taken yet. -/
theorem choose_not_mem {used : List String} {key id type : Option String} {path : TreePath}
    {name : String} (h : choose used key id type path = .ok name) : name ∉ used := by
  rw [choose] at h
  split at h
  · split at h
    · cases h
    · rename_i free
      cases h
      exact fun taken => free (List.contains_iff_mem.mpr taken)
  · cases h
    exact firstFree_not_mem used _

end NodeName

/-! ## Named trees -/

/-- A tree whose nodes have their final names. -/
inductive NamedTree (α : Type u) where
  | ref (name : String)
  | node (name : String) (shape : Shape α) (children : List (NamedTree α))

/-- A node of a named tree, with the names that its children denote. -/
structure NamedNode (α : Type u) where
  name : String
  shape : Shape α
  children : List String

namespace NamedTree

variable {α : Type u}

/-- The name that the tree denotes. -/
def name : NamedTree α → String
  | ref name => name
  | node name _ _ => name

mutual

/-- The nodes, each before its children. -/
def preorder : NamedTree α → List (NamedNode α)
  | ref _ => []
  | node name shape children =>
      ⟨name, shape, children.map NamedTree.name⟩ :: preorderAll children

/-- The nodes of a list of trees, each before its children. -/
def preorderAll : List (NamedTree α) → List (NamedNode α)
  | [] => []
  | tree :: rest => tree.preorder ++ preorderAll rest

end

mutual

/-- The nodes, each after its children. -/
def postorder : NamedTree α → List (NamedNode α)
  | ref _ => []
  | node name shape children =>
      postorderAll children ++ [⟨name, shape, children.map NamedTree.name⟩]

/-- The nodes of a list of trees, each after its children. -/
def postorderAll : List (NamedTree α) → List (NamedNode α)
  | [] => []
  | tree :: rest => tree.postorder ++ postorderAll rest

end

/-- The names of the nodes in preorder. -/
def names (tree : NamedTree α) : List String := tree.preorder.map NamedNode.name

/-- The names of the nodes of a list of trees in preorder. -/
def namesAll (trees : List (NamedTree α)) : List String := (preorderAll trees).map NamedNode.name

theorem names_node (name : String) (shape : Shape α) (children : List (NamedTree α)) :
    (node name shape children).names = name :: namesAll children := by
  rw [names, preorder, List.map_cons, namesAll]

theorem namesAll_cons (tree : NamedTree α) (rest : List (NamedTree α)) :
    namesAll (tree :: rest) = tree.names ++ namesAll rest := by
  rw [namesAll, preorderAll, List.map_append, names, namesAll]

mutual

/-- Both orders list the same nodes. -/
theorem postorder_perm : ∀ tree : NamedTree α, tree.postorder.Perm tree.preorder
  | ref _ => by
      rw [postorder, preorder]
  | node name shape children => by
      rw [postorder, preorder]
      exact (List.perm_append_singleton _ _).trans ((postorderAll_perm children).cons _)

theorem postorderAll_perm : ∀ trees : List (NamedTree α),
    (postorderAll trees).Perm (preorderAll trees)
  | [] => by
      rw [postorderAll, preorderAll]
  | tree :: rest => by
      rw [postorderAll, preorderAll]
      exact (postorder_perm tree).append (postorderAll_perm rest)

end

end NamedTree

/-! ## Naming -/

namespace Tree

variable {α : Type u}

mutual

/-- Names the nodes of a tree at a place, of which the given names are taken. -/
def named (path : TreePath) (used : List String) : Tree α → Except CompileError (NamedTree α)
  | ref target =>
      if used.contains target then .ok (.ref target) else .error (.unknownTarget target)
  | node key id shape children =>
      match NodeName.choose used key id shape.typeName path with
      | .error error => .error error
      | .ok name =>
          match namedAll path 0 (used ++ [name]) children with
          | .error error => .error error
          | .ok children => .ok (.node name shape children)

/-- Names the children at a place, of which the first has the given index. -/
def namedAll (path : TreePath) (index : Nat) (used : List String) :
    List (Tree α) → Except CompileError (List (NamedTree α))
  | [] => .ok []
  | tree :: rest =>
      match named (path.child index) used tree with
      | .error error => .error error
      | .ok first =>
          match namedAll path (index + 1) (used ++ first.names) rest with
          | .error error => .error error
          | .ok others => .ok (first :: others)

end

theorem named_ref_eq_ok {path : TreePath} {used : List String} {target : String}
    {result : NamedTree α} (h : named path used (ref target) = .ok result) :
    target ∈ used ∧ result = .ref target := by
  rw [named] at h
  split at h
  · rename_i known
    cases h
    exact ⟨List.contains_iff_mem.mp known, rfl⟩
  · cases h

theorem named_node_eq_ok {path : TreePath} {used : List String} {key id : Option String}
    {shape : Shape α} {children : List (Tree α)} {result : NamedTree α}
    (h : named path used (node key id shape children) = .ok result) :
    ∃ name results, NodeName.choose used key id shape.typeName path = .ok name ∧
      namedAll path 0 (used ++ [name]) children = .ok results ∧
      result = .node name shape results := by
  rw [named] at h
  split at h
  · cases h
  · rename_i name chosen
    split at h
    · cases h
    · rename_i results others
      cases h
      exact ⟨name, results, chosen, others, rfl⟩

theorem namedAll_cons_eq_ok {path : TreePath} {index : Nat} {used : List String} {tree : Tree α}
    {rest : List (Tree α)} {results : List (NamedTree α)}
    (h : namedAll path index used (tree :: rest) = .ok results) :
    ∃ first others, named (path.child index) used tree = .ok first ∧
      namedAll path (index + 1) (used ++ first.names) rest = .ok others ∧
      results = first :: others := by
  rw [namedAll] at h
  split at h
  · cases h
  · rename_i first here
    split at h
    · cases h
    · rename_i others later
      cases h
      exact ⟨first, others, here, later, rfl⟩

mutual

/-- Names that differ are continued by names that differ. -/
theorem nodup_names {path : TreePath} {used : List String} (distinct : used.Nodup) :
    ∀ {tree : Tree α} {result : NamedTree α}, tree.named path used = .ok result →
      (used ++ result.names).Nodup
  | ref target, result, h => by
      obtain ⟨_, rfl⟩ := named_ref_eq_ok h
      simpa [NamedTree.names, NamedTree.preorder] using distinct
  | node key id shape children, result, h => by
      obtain ⟨name, results, chosen, others, rfl⟩ := named_node_eq_ok h
      have fresh := NodeName.choose_not_mem chosen
      have extended : (used ++ [name]).Nodup := by
        rw [← List.concat_eq_append, List.nodup_concat]
        exact ⟨fresh, distinct⟩
      have all := nodup_namesAll extended others
      rwa [NamedTree.names_node, List.append_cons]

theorem nodup_namesAll {path : TreePath} {index : Nat} {used : List String}
    (distinct : used.Nodup) : ∀ {trees : List (Tree α)} {results : List (NamedTree α)},
      namedAll path index used trees = .ok results →
      (used ++ NamedTree.namesAll results).Nodup
  | [], results, h => by
      rw [namedAll] at h
      cases h
      simpa [NamedTree.namesAll, NamedTree.preorderAll] using distinct
  | tree :: rest, results, h => by
      obtain ⟨first, others, here, later, rfl⟩ := namedAll_cons_eq_ok h
      have all := nodup_namesAll (nodup_names distinct here) later
      rwa [NamedTree.namesAll_cons, ← List.append_assoc]

end

end Tree

/-- Every name that is denoted in the tree is known. -/
structure NamedTree.Resolved {α : Type u} (known : List String) (tree : NamedTree α) : Prop where
  denoted : tree.name ∈ known
  children : ∀ node ∈ tree.preorder, node.children ⊆ known

theorem NamedTree.Resolved.mono {α : Type u} {known more : List String} {tree : NamedTree α}
    (h : tree.Resolved known) (le : known ⊆ more) : tree.Resolved more where
  denoted := le h.denoted
  children node member := List.Subset.trans (h.children node member) le

theorem NamedTree.children_of_resolvedAll {α : Type u} {known : List String}
    {trees : List (NamedTree α)} (h : ∀ tree ∈ trees, tree.Resolved known) :
    ∀ node ∈ preorderAll trees, node.children ⊆ known := by
  induction trees with
  | nil =>
      intro node member
      rw [preorderAll] at member
      cases member
  | cons tree rest ih =>
      intro node member
      rw [preorderAll, List.mem_append] at member
      rcases member with here | later
      · exact (h tree List.mem_cons_self).children node here
      · exact ih (fun other listed => h other (List.mem_cons_of_mem _ listed)) node later

namespace Tree

variable {α : Type u}

mutual

/-- References are to names known before, so all names in a named tree are known with its own. -/
theorem resolved_named {path : TreePath} {used : List String} :
    ∀ {tree : Tree α} {result : NamedTree α}, tree.named path used = .ok result →
      result.Resolved (used ++ result.names)
  | ref target, result, h => by
      obtain ⟨known, rfl⟩ := named_ref_eq_ok h
      constructor
      · exact List.mem_append_left _ known
      · intro node member
        rw [NamedTree.preorder] at member
        cases member
  | node key id shape children, result, h => by
      obtain ⟨name, results, _, others, rfl⟩ := named_node_eq_ok h
      have resolved := resolved_namedAll others
      rw [NamedTree.names_node, List.append_cons]
      constructor
      · rw [NamedTree.name]
        exact List.mem_append_left _ (List.mem_append_right _ List.mem_cons_self)
      · intro node member
        rw [NamedTree.preorder, List.mem_cons] at member
        rcases member with rfl | member
        · intro child denoted
          obtain ⟨tree, listed, rfl⟩ := List.mem_map.mp denoted
          exact (resolved tree listed).denoted
        · exact NamedTree.children_of_resolvedAll resolved node member

theorem resolved_namedAll {path : TreePath} {index : Nat} {used : List String} :
    ∀ {trees : List (Tree α)} {results : List (NamedTree α)},
      namedAll path index used trees = .ok results →
      ∀ result ∈ results, result.Resolved (used ++ NamedTree.namesAll results)
  | [], results, h => by
      rw [namedAll] at h
      cases h
      intro result member
      cases member
  | tree :: rest, results, h => by
      obtain ⟨first, others, here, later, rfl⟩ := namedAll_cons_eq_ok h
      have resolved := resolved_named here
      have resolvedAll := resolved_namedAll later
      rw [NamedTree.namesAll_cons, ← List.append_assoc]
      intro result member
      rcases List.mem_cons.mp member with rfl | member
      · exact resolved.mono (List.subset_append_left _ _)
      · exact resolvedAll result member

end

end Tree

end SceneLayout
