import SceneLayout.Proofs.ExplicitNames

/-!
# Inserted leaves

A tree with explicit names gets one more figure among the children of a group or of a container,
under a name that stands nowhere in the tree. All nodes keep their names, one record comes in among
the others, and no operator comes in.

## Implementation notes

Insertion is a relation between trees, and the same relation between named trees. Naming takes the
one to the other; what it does behind the leaf does not depend on the place, since all names are
explicit, nor on the new name, since it is not asked for.

Main statements: `Inserts.named`, `Inserts.records`, `Inserts.operators`.
-/

namespace SceneLayout

universe u

variable {α : Type u}

namespace Shape

/-- The node only holds its children together. -/
inductive IsPlain : Shape α → Prop where
  | group : IsPlain .group
  | container (type : Option String) : IsPlain (.container type)

/-- The node is drawn by numbers of its own. -/
inductive IsFigure : Shape α → Prop where
  | rect (x y width height : α) (style : Style α) : IsFigure (.rect x y width height style)
  | circle (r x y : α) (style : Style α) : IsFigure (.circle r x y style)
  | text (content : String) (x y : α) (width height : Option α) (style : Style α) :
      IsFigure (.text content x y width height style)

end Shape

/-- The other tree is the tree with a leaf among the children of one of its groups or containers. -/
inductive Tree.Inserts (leaf : Tree α) : Tree α → Tree α → Prop where
  | here {key id : Option String} {shape : Shape α} (plain : shape.IsPlain)
      (before after : List (Tree α)) :
      Inserts leaf (.node key id shape (before ++ after))
        (.node key id shape (before ++ leaf :: after))
  | under {key id : Option String} {shape : Shape α} (before after : List (Tree α))
      {tree grown : Tree α} (inside : Inserts leaf tree grown) :
      Inserts leaf (.node key id shape (before ++ tree :: after))
        (.node key id shape (before ++ grown :: after))

/-- The other named tree is the tree with a leaf among the children of one of its groups or
containers. -/
inductive NamedTree.Inserts (leaf : NamedTree α) : NamedTree α → NamedTree α → Prop where
  | here {name : String} {shape : Shape α} (plain : shape.IsPlain)
      (before after : List (NamedTree α)) :
      Inserts leaf (.node name shape (before ++ after))
        (.node name shape (before ++ leaf :: after))
  | under {name : String} {shape : Shape α} (before after : List (NamedTree α))
      {tree grown : NamedTree α} (inside : Inserts leaf tree grown) :
      Inserts leaf (.node name shape (before ++ tree :: after))
        (.node name shape (before ++ grown :: after))

/-! ## The nodes of a tree with a leaf inserted -/

namespace NamedTree

theorem preorderAll_append (trees others : List (NamedTree α)) :
    preorderAll (trees ++ others) = preorderAll trees ++ preorderAll others := by
  induction trees with
  | nil => rw [List.nil_append, preorderAll, List.nil_append]
  | cons tree rest ih =>
      rw [List.cons_append, preorderAll, ih, preorderAll, List.append_assoc]

theorem postorderAll_append (trees others : List (NamedTree α)) :
    postorderAll (trees ++ others) = postorderAll trees ++ postorderAll others := by
  induction trees with
  | nil => rw [List.nil_append, postorderAll, List.nil_append]
  | cons tree rest ih =>
      rw [List.cons_append, postorderAll, ih, postorderAll, List.append_assoc]

theorem names_leaf (name : String) (shape : Shape α) : (node name shape []).names = [name] := by
  rw [names_node, namesAll, preorderAll, List.map_nil]

theorem Inserts.name_eq {leaf tree grown : NamedTree α} (inserts : Inserts leaf tree grown) :
    grown.name = tree.name := by
  cases inserts <;> rfl

theorem Inserts.map_name {leaf tree grown : NamedTree α} (inserts : Inserts leaf tree grown)
    (before after : List (NamedTree α)) :
    (before ++ grown :: after).map name = (before ++ tree :: after).map name := by
  rw [List.map_append, List.map_append, List.map_cons, List.map_cons, inserts.name_eq]

section Scenes

variable [Scalar α] {name : String} {shape : Shape α} {tree grown : NamedTree α}

/-- Apart from arrows, a record does not depend on the children. -/
theorem record_of_isPlain {plain : Shape α} (h : plain.IsPlain) (name : String)
    (children : List String) :
    (⟨name, plain, children⟩ : NamedNode α).record = plain.record name := by
  cases h <;> rfl

theorem record_of_isFigure (figure : shape.IsFigure) (name : String) (children : List String) :
    (⟨name, shape, children⟩ : NamedNode α).record = shape.record name := by
  cases figure <;> rfl

/-- One record comes in, and all others keep their order. -/
theorem Inserts.records (inserts : Inserts (.node name shape []) tree grown)
    (figure : shape.IsFigure) :
    ∃ before after, tree.preorder.map NamedNode.record = before ++ after ∧
      grown.preorder.map NamedNode.record = before ++ shape.record name :: after := by
  induction inserts with
  | @here own plain holds first later =>
      refine ⟨plain.record own :: (preorderAll first).map NamedNode.record,
        (preorderAll later).map NamedNode.record, ?_, ?_⟩
      · simp only [preorder, preorderAll_append, List.map_cons, List.map_append,
          record_of_isPlain holds, List.cons_append]
      · simp only [preorder, preorderAll_append, preorderAll, List.map_cons, List.map_append,
          record_of_isPlain holds, record_of_isFigure figure, List.cons_append, List.nil_append]
  | @under own outer first later inner outcome inside ih =>
      obtain ⟨before, after, same, more⟩ := ih
      refine ⟨NamedNode.record ⟨own, outer, (first ++ inner :: later).map NamedTree.name⟩ ::
        ((preorderAll first).map NamedNode.record ++ before),
        after ++ (preorderAll later).map NamedNode.record, ?_, ?_⟩
      · simp only [preorder, preorderAll_append, preorderAll, List.map_cons, List.map_append, same,
          List.cons_append, List.append_assoc]
      · rw [← inside.map_name]
        simp only [preorder, preorderAll_append, preorderAll, List.map_cons, List.map_append, more,
          List.cons_append, List.append_assoc]

omit [Scalar α] in
/-- Neither the leaf nor the node above it has an operator. -/
theorem Inserts.operators (inserts : Inserts (.node name shape []) tree grown)
    (figure : shape.IsFigure) (names : List String) :
    grown.postorder.filterMap (NamedNode.operator? names) =
      tree.postorder.filterMap (NamedNode.operator? names) := by
  induction inserts with
  | @here own plain holds first later =>
      have none (children : List String) :
          [(⟨own, plain, children⟩ : NamedNode α)].filterMap (NamedNode.operator? names) = [] := by
        cases holds <;> rfl
      have leaf : [(⟨name, shape, []⟩ : NamedNode α)].filterMap (NamedNode.operator? names) =
          [] := by
        cases figure <;> rfl
      simp only [postorder, postorderAll_append, postorderAll, List.filterMap_append, none,
        List.map_nil, List.nil_append, leaf]
  | @under own outer first later inner outcome inside ih =>
      simp only [postorder, postorderAll_append, postorderAll, List.filterMap_append, ih,
        inside.map_name]

theorem names_eq_map_record (tree : NamedTree α) :
    tree.names = (tree.preorder.map NamedNode.record).map Record.id := by
  rw [names, List.map_map]
  exact (List.map_congr_left fun node _ => node.id_record).symm

theorem Inserts.mem_names_iff (inserts : Inserts (.node name shape []) tree grown)
    (figure : shape.IsFigure) (other : String) :
    other ∈ grown.names ↔ other = name ∨ other ∈ tree.names := by
  obtain ⟨before, after, same, more⟩ := inserts.records figure
  rw [names_eq_map_record, more, names_eq_map_record, same]
  simp only [List.map_append, List.map_cons, Shape.id_record, List.mem_append, List.mem_cons]
  tauto

end Scenes

end NamedTree

/-! ## Naming a tree with a leaf inserted -/

namespace Tree

theorem namedAll_append_eq_ok {path : TreePath} {trees others : List (Tree α)} {index : Nat}
    {used : List String} {results : List (NamedTree α)} :
    namedAll path index used (trees ++ others) = .ok results ↔
      ∃ first second, namedAll path index used trees = .ok first ∧
        namedAll path (index + trees.length) (used ++ NamedTree.namesAll first) others =
          .ok second ∧ results = first ++ second := by
  induction trees generalizing index used results with
  | nil =>
      have none : NamedTree.namesAll ([] : List (NamedTree α)) = [] := by
        rw [NamedTree.namesAll, NamedTree.preorderAll, List.map_nil]
      simp [namedAll, none]
  | cons tree rest ih =>
      constructor
      · intro h
        obtain ⟨here, later, named, followed, rfl⟩ := namedAll_cons_eq_ok h
        obtain ⟨first, second, ofRest, ofOthers, rfl⟩ := ih.mp followed
        refine ⟨here :: first, second, ?_, ?_, rfl⟩
        · simp only [namedAll, named, ofRest]
        · rwa [NamedTree.namesAll_cons, ← List.append_assoc, List.length_cons, Nat.add_comm _ 1,
            ← Nat.add_assoc]
      · rintro ⟨first, second, ofTrees, ofOthers, rfl⟩
        obtain ⟨here, later, named, followed, rfl⟩ := namedAll_cons_eq_ok ofTrees
        rw [NamedTree.namesAll_cons, ← List.append_assoc, List.length_cons, Nat.add_comm _ 1,
          ← Nat.add_assoc] at ofOthers
        have rest := ih.mpr ⟨later, second, followed, ofOthers, rfl⟩
        simp only [List.cons_append, namedAll, named, rest]

variable {key id : Option String} {shape : Shape α} {field : NameField} {name : String}

theorem named_leaf (found : NodeName.explicit? key id = some (field, name)) {used : List String}
    (fresh : name ∉ used) (path : TreePath) :
    (node key id shape []).named path used = .ok (.node name shape []) := by
  simp only [named, NodeName.choose_of_explicit? found, if_neg fresh, namedAll]

/-- Trees behind a leaf are named as if it were not there. -/
theorem namedAll_behind {path : TreePath} {index index' : Nat} {used used' : List String}
    {trees : List (Tree α)} {results : List (NamedTree α)}
    (explicit : ∀ node ∈ nodesAll trees, node.HasName) (unmentioned : name ∉ mentionedAll trees)
    (more : ∀ other, other ∈ used' ↔ other = name ∨ other ∈ used)
    (ofTrees : namedAll path index used trees = .ok results) :
    namedAll path index' used' trees = .ok results := by
  rw [← ofTrees]
  apply namedAll_congr path path index index' explicit
  intro other mentioned
  have different : other ≠ name := fun same => unmentioned (same ▸ mentioned)
  rw [more other, or_iff_right different]

/-- The name of a leaf is not taken by the node above it, nor by the trees before it. -/
theorem fresh_behind {outer : Shape α} {before : List (Tree α)}
    (hasName : TreeNode.HasName (⟨key, id, outer⟩ : TreeNode α))
    (notOwn : name ∉ key.toList ∧ name ∉ id.toList) {path : TreePath} {used : List String}
    (fresh : name ∉ used) {own : String}
    (chosen : NodeName.choose used key id outer.typeName path = .ok own)
    (explicit : ∀ node ∈ nodesAll before, node.HasName) (notBefore : name ∉ mentionedAll before)
    {first : List (NamedTree α)} (ofBefore : namedAll path 0 (used ++ [own]) before = .ok first) :
    name ∉ used ++ [own] ++ NamedTree.namesAll first := by
  obtain ⟨_, explicitOwn, found⟩ := NodeName.exists_explicit? hasName
  obtain rfl := NodeName.eq_of_choose chosen found
  have stands := NodeName.stands_of_explicit? found
  rw [← Option.mem_toList, ← Option.mem_toList] at stands
  have different : name ≠ own := by
    rintro rfl
    exact stands.elim notOwn.1 notOwn.2
  have apart : name ∉ NamedTree.namesAll first :=
    fun listed => notBefore (namesAll_subset_mentionedAll ofBefore explicit listed)
  simp only [List.mem_append, List.mem_singleton, not_or]
  exact ⟨⟨fresh, different⟩, apart⟩

/-- A tree with a leaf inserted gets the same names, apart from that of the leaf. -/
theorem Inserts.named [Scalar α] {tree grown : Tree α}
    (inserts : Inserts (.node key id shape []) tree grown) (figure : shape.IsFigure)
    (found : NodeName.explicit? key id = some (field, name))
    (explicit : ∀ node ∈ tree.nodes, node.HasName) (unmentioned : name ∉ tree.mentioned)
    {path : TreePath} {used : List String} (fresh : name ∉ used) {result : NamedTree α}
    (named : tree.named path used = .ok result) :
    ∃ outcome, grown.named path used = .ok outcome ∧
      NamedTree.Inserts (.node name shape []) result outcome := by
  induction inserts generalizing path used result with
  | @here key' id' plain holds before after =>
      obtain ⟨own, results, chosen, children, rfl⟩ := named_node_eq_ok named
      obtain ⟨first, second, ofBefore, ofAfter, rfl⟩ := namedAll_append_eq_ok.mp children
      rw [nodes, List.forall_mem_cons, nodesAll_append, List.forall_mem_append] at explicit
      simp only [mentioned, mentionedAll_append, List.mem_append, not_or] at unmentioned
      obtain ⟨hasName, explicitBefore, explicitAfter⟩ := explicit
      obtain ⟨notOwn, notBefore, notAfter⟩ := unmentioned
      have apart := fresh_behind hasName notOwn fresh chosen explicitBefore notBefore ofBefore
      have behind : namedAll path (0 + before.length + 1)
          (used ++ [own] ++ NamedTree.namesAll first ++ [name]) after = .ok second := by
        refine namedAll_behind explicitAfter notAfter (fun other => ?_) ofAfter
        rw [List.mem_append, List.mem_singleton, or_comm]
      have all : namedAll path 0 (used ++ [own]) (before ++ node key id shape [] :: after) =
          .ok (first ++ .node name shape [] :: second) := by
        refine namedAll_append_eq_ok.mpr ⟨first, _, ofBefore, ?_, rfl⟩
        simp only [namedAll, named_leaf found apart, NamedTree.names_leaf, behind]
      refine ⟨.node own plain (first ++ .node name shape [] :: second), ?_,
        .here holds first second⟩
      simp only [Tree.named, chosen, all]
  | @under key' id' outer before after inner outcome inside ih =>
      obtain ⟨own, results, chosen, children, rfl⟩ := named_node_eq_ok named
      obtain ⟨first, others, ofBefore, ofOthers, rfl⟩ := namedAll_append_eq_ok.mp children
      obtain ⟨middle, second, ofInner, ofAfter, rfl⟩ := namedAll_cons_eq_ok ofOthers
      rw [nodes, List.forall_mem_cons, nodesAll_append, List.forall_mem_append, nodesAll,
        List.forall_mem_append] at explicit
      simp only [mentioned, mentionedAll_append, mentionedAll, List.mem_append, not_or]
        at unmentioned
      obtain ⟨hasName, explicitBefore, explicitInner, explicitAfter⟩ := explicit
      obtain ⟨notOwn, notBefore, notInner, notAfter⟩ := unmentioned
      have apart := fresh_behind hasName notOwn fresh chosen explicitBefore notBefore ofBefore
      obtain ⟨middle', ofOutcome, inserts⟩ := ih explicitInner notInner apart ofInner
      have behind : namedAll path (0 + before.length + 1)
          (used ++ [own] ++ NamedTree.namesAll first ++ middle'.names) after = .ok second := by
        refine namedAll_behind explicitAfter notAfter (fun other => ?_) ofAfter
        rw [List.mem_append, inserts.mem_names_iff figure, or_left_comm, ← List.mem_append]
      have all : namedAll path 0 (used ++ [own]) (before ++ outcome :: after) =
          .ok (first ++ middle' :: second) := by
        refine namedAll_append_eq_ok.mpr ⟨first, _, ofBefore, ?_, rfl⟩
        simp only [namedAll, ofOutcome, behind]
      refine ⟨.node own outer (first ++ middle' :: second), ?_, .under first second inserts⟩
      simp only [Tree.named, chosen, all]

end Tree

end SceneLayout
