import SceneLayout.Proofs.Naming
import SceneLayout.Proofs.OperatorGraph
import SceneLayout.Proofs.ShapeOperators

/-!
# What compilation builds

A compiled scene holds the records of the nodes of the named tree in preorder and their
operators in postorder. The rank of an entity is the place of its name among all names,
so ids differ, every entry of an operator is an entity of the scene, and the entries are
distinct wherever the names are.

Main statements: `compile_eq`, `onEntities_of_operator?`, `inside_of_mem_operators`.
-/

namespace SceneLayout

universe u

variable {α : Type u} [Scalar α]

theorem Shape.id_record (shape : Shape α) (id : String) : (shape.record id).id = id := by
  cases shape <;> rfl

namespace NamedNode

/-- The record of a node. An arrow leads from its first child to its second. -/
def record (node : NamedNode α) : Record α :=
  match node.shape, node.children with
  | .arrow _, source :: target :: _ =>
      { node.shape.record node.name with fromId := some source, toId := some target }
  | shape, _ => shape.record node.name

/-- The operator of a node whose name is one of the given names. -/
def operator? (names : List String) (node : NamedNode α) : Option (Operator α) :=
  node.shape.operator? (names.idxOf node.name) (node.children.map names.idxOf)

theorem id_record (node : NamedNode α) : node.record.id = node.name := by
  obtain ⟨name, shape, children⟩ := node
  cases shape with
  | arrow style => cases children with
    | nil => rfl
    | cons source rest => cases rest <;> rfl
  | _ => rfl

end NamedNode

namespace NamedTree

/-- The scene of a named tree. -/
def scene (tree : NamedTree α) : Scene α where
  records := tree.preorder.map NamedNode.record
  operators := tree.postorder.filterMap (NamedNode.operator? tree.names)

theorem ids_scene (tree : NamedTree α) : tree.scene.ids = tree.names := by
  rw [Scene.ids, scene, List.map_map, names]
  exact List.map_congr_left fun node _ => node.id_record

end NamedTree

/-! ## Compilation follows the names -/

namespace Draft

/-- The draft with the nodes of a walked part, where all names are as given. -/
def extended (draft : Draft α) (names : List String) (preorder postorder : List (NamedNode α)) :
    Draft α where
  records := draft.records ++ preorder.map NamedNode.record
  operators := draft.operators ++ postorder.filterMap (NamedNode.operator? names)

theorem ids_extended (draft : Draft α) (names : List String)
    (preorder postorder : List (NamedNode α)) :
    (draft.extended names preorder postorder).ids =
      draft.ids ++ preorder.map NamedNode.name := by
  rw [Scene.ids, extended, List.map_append, List.map_map]
  congr 1
  exact List.map_congr_left fun node _ => node.id_record

theorem extended_extended (draft : Draft α) (names : List String)
    (preorder postorder preorder' postorder' : List (NamedNode α)) :
    (draft.extended names preorder postorder).extended names preorder' postorder' =
      draft.extended names (preorder ++ preorder') (postorder ++ postorder') := by
  simp [extended]

omit [Scalar α] in
theorem rankOf?_eq (draft : Draft α) (id : String) :
    draft.rankOf? id = if id ∈ draft.ids then some (draft.ids.idxOf id) else none := by
  have ofIds : draft.rankOf? id = draft.ids.idxOf? id := by
    rw [rankOf?, Scene.ids, List.idxOf?, List.findIdx?_map]
    rfl
  rw [ofIds]
  split
  · rename_i known
    exact List.findIdx?_eq_some_iff_findIdx_eq.mpr ⟨List.idxOf_lt_length_of_mem known, rfl⟩
  · rename_i unknown
    exact List.idxOf?_eq_none_iff.mpr unknown

theorem ids_addRecord (draft : Draft α) (name : String) (shape : Shape α) :
    (draft.addRecord (shape.record name)).ids = draft.ids ++ [name] := by
  rw [Scene.ids, addRecord, List.map_append, List.map_singleton, Shape.id_record]
  rfl

/-- Ranks lead back to the names. -/
theorem filterMap_getElem?_idxOf {known names children : List String} (start : known <+: names)
    (resolved : children ⊆ known) :
    (children.map names.idxOf).filterMap (fun rank => known[rank]?) = children := by
  rw [List.filterMap_map]
  have back : ∀ child ∈ children, known[names.idxOf child]? = some child := by
    intro child member
    obtain ⟨rest, rfl⟩ := start
    rw [List.idxOf_append_of_mem (resolved member)]
    exact List.getElem?_idxOf (resolved member)
  calc
    children.filterMap ((fun rank => known[rank]?) ∘ names.idxOf)
        = children.filterMap some := List.filterMap_congr back
    _ = children := List.filterMap_some

theorem modify_length_append {β : Type*} (front back : List β) (item : β) (f : β → β) :
    (front ++ item :: back).modify front.length f = front ++ f item :: back := by
  induction front with
  | nil => rfl
  | cons first rest ih => rw [List.cons_append, List.length_cons, List.modify_succ_cons, ih]; rfl

/-- An arrow is completed to what its names say. -/
theorem connect_extended {draft : Draft α} {names children : List String} {name : String}
    {preorder postorder : List (NamedNode α)} (style : Style α)
    (start : draft.ids ++ [name] ++ preorder.map NamedNode.name <+: names)
    (resolved : children ⊆ draft.ids ++ [name] ++ preorder.map NamedNode.name) :
    Draft.connect ((draft.addRecord (Shape.record name (.arrow style))).extended names preorder
        postorder) draft.records.length (children.map names.idxOf) =
      draft.extended names (⟨name, .arrow style, children⟩ :: preorder)
        (postorder ++ [⟨name, .arrow style, children⟩]) := by
  have back := filterMap_getElem?_idxOf start resolved
  rw [← ids_addRecord draft name (.arrow style), ← ids_extended _ names _ postorder] at back
  have none : (⟨name, .arrow style, children⟩ : NamedNode α).operator? names = none := rfl
  rw [connect, back]
  match children with
  | [] => simp [extended, addRecord, NamedNode.record, none]
  | [source] => simp [extended, addRecord, NamedNode.record, none]
  | source :: target :: rest =>
      simp only [extended, addRecord, List.append_assoc, List.singleton_append,
        modify_length_append, List.map_cons, NamedNode.record, List.filterMap_append,
        List.filterMap_cons, List.filterMap_nil, List.append_nil, none]

/-- A node is completed to what its names say. -/
theorem close_extended {draft : Draft α} {names children : List String} {name : String}
    {preorder postorder : List (NamedNode α)} (shape : Shape α)
    (rank : names.idxOf name = draft.records.length)
    (start : draft.ids ++ [name] ++ preorder.map NamedNode.name <+: names)
    (resolved : children ⊆ draft.ids ++ [name] ++ preorder.map NamedNode.name) :
    Draft.close ((draft.addRecord (shape.record name)).extended names preorder postorder) shape
        draft.records.length (children.map names.idxOf) =
      draft.extended names (⟨name, shape, children⟩ :: preorder)
        (postorder ++ [⟨name, shape, children⟩]) := by
  have last : ∀ node : NamedNode α,
      [node].filterMap (NamedNode.operator? names) = (node.operator? names).toList := by
    intro node
    cases found : node.operator? names <;> simp [found]
  cases shape with
  | arrow style => exact connect_extended style start resolved
  | _ =>
      simp only [close, extended, addRecord, List.map_cons, NamedNode.record, List.append_assoc,
        List.singleton_append, List.filterMap_append, last, NamedNode.operator?, rank]

end Draft

namespace Tree

mutual

/-- Walking a tree appends what its named tree says, whatever names follow. -/
theorem place_of_named {path : TreePath} {draft : Draft α} {names : List String} :
    ∀ {tree : Tree α} {result : NamedTree α}, tree.named path draft.ids = .ok result →
      draft.ids ++ result.names <+: names →
      tree.place path draft = .ok (names.idxOf result.name,
        draft.extended names result.preorder result.postorder)
  | ref target, result, h, start => by
      obtain ⟨known, rfl⟩ := named_ref_eq_ok h
      obtain ⟨rest, rfl⟩ := start
      rw [place, Draft.rankOf?_eq, if_pos known]
      simp [NamedTree.name, NamedTree.names, NamedTree.preorder, NamedTree.postorder,
        Draft.extended, List.idxOf_append_of_mem known]
  | node key id shape children, result, h, start => by
      obtain ⟨name, results, chosen, others, rfl⟩ := named_node_eq_ok h
      rw [NamedTree.names_node, List.append_cons] at start
      have ids := Draft.ids_addRecord draft name shape
      have walked : placeAll path 0 (draft.addRecord (shape.record name)) children =
          .ok ((results.map NamedTree.name).map names.idxOf, _) :=
        placeAll_of_named (ids.symm ▸ others) (ids.symm ▸ start)
      have rank : names.idxOf name = draft.records.length := by
        obtain ⟨rest, rfl⟩ := start
        have absent := NodeName.choose_not_mem chosen
        rw [List.append_assoc, List.append_assoc, List.idxOf_append_of_notMem absent]
        simp [Scene.ids]
      have resolved : results.map NamedTree.name ⊆
          draft.ids ++ [name] ++ NamedTree.namesAll results := by
        intro child denoted
        obtain ⟨tree, listed, rfl⟩ := List.mem_map.mp denoted
        exact (resolved_namedAll others tree listed).denoted
      rw [place, chosen]
      simp only [walked]
      rw [Draft.close_extended shape rank start resolved, NamedTree.name, rank,
        NamedTree.preorder, NamedTree.postorder]

theorem placeAll_of_named {path : TreePath} {index : Nat} {draft : Draft α}
    {names : List String} : ∀ {trees : List (Tree α)} {results : List (NamedTree α)},
      namedAll path index draft.ids trees = .ok results →
      draft.ids ++ NamedTree.namesAll results <+: names →
      placeAll path index draft trees = .ok ((results.map NamedTree.name).map names.idxOf,
        draft.extended names (NamedTree.preorderAll results) (NamedTree.postorderAll results))
  | [], results, h, start => by
      rw [namedAll] at h
      cases h
      rw [placeAll]
      simp [NamedTree.preorderAll, NamedTree.postorderAll, Draft.extended]
  | tree :: rest, results, h, start => by
      obtain ⟨first, others, here, later, rfl⟩ := namedAll_cons_eq_ok h
      rw [NamedTree.namesAll_cons, ← List.append_assoc] at start
      have placed := place_of_named here ((List.prefix_append _ _).trans start)
      have ids : (draft.extended names first.preorder first.postorder).ids =
          draft.ids ++ first.names := Draft.ids_extended _ _ _ _
      have followed : placeAll path (index + 1)
          (draft.extended names first.preorder first.postorder) rest =
          .ok ((others.map NamedTree.name).map names.idxOf, _) :=
        placeAll_of_named (ids.symm ▸ later) (ids.symm ▸ start)
      rw [placeAll, placed]
      simp only [followed]
      rw [Draft.extended_extended, NamedTree.preorderAll, NamedTree.postorderAll, List.map_cons,
        List.map_cons]

end

mutual

/-- A tree that cannot be named is refused for the same reason. -/
theorem place_of_named_error {path : TreePath} {draft : Draft α} {error : CompileError} :
    ∀ {tree : Tree α}, tree.named path draft.ids = .error error →
      tree.place path draft = .error error
  | ref target, h => by
      rw [named] at h
      rw [place, Draft.rankOf?_eq]
      split at h
      · cases h
      · rename_i unknown
        cases h
        rw [if_neg fun known => unknown (List.contains_iff_mem.mpr known)]
  | node key id shape children, h => by
      rw [named] at h
      rw [place]
      cases chosen : NodeName.choose draft.ids key id shape.typeName path with
      | error reason =>
          simp only [chosen] at h ⊢
          cases h
          rfl
      | ok name =>
          simp only [chosen] at h ⊢
          rw [← Draft.ids_addRecord draft name shape] at h
          cases walked : namedAll path 0 (draft.addRecord (shape.record name)).ids children with
          | error reason =>
              simp only [walked] at h
              cases h
              simp only [placeAll_of_named_error walked]
          | ok results =>
              simp only [walked] at h
              cases h

theorem placeAll_of_named_error {path : TreePath} {index : Nat} {draft : Draft α}
    {error : CompileError} : ∀ {trees : List (Tree α)},
      namedAll path index draft.ids trees = .error error →
      placeAll path index draft trees = .error error
  | [], h => by
      rw [namedAll] at h
      cases h
  | tree :: rest, h => by
      rw [namedAll] at h
      rw [placeAll]
      cases here : named (path.child index) draft.ids tree with
      | error reason =>
          simp only [here] at h
          cases h
          simp only [place_of_named_error here]
      | ok first =>
          have ids : (draft.extended (draft.ids ++ first.names) first.preorder
              first.postorder).ids = draft.ids ++ first.names := Draft.ids_extended _ _ _ _
          simp only [here] at h
          rw [← ids] at h
          simp only [place_of_named here List.prefix_rfl]
          cases later : namedAll path (index + 1) (draft.extended (draft.ids ++ first.names)
              first.preorder first.postorder).ids rest with
          | error reason =>
              simp only [later] at h
              cases h
              simp only [placeAll_of_named_error later]
          | ok others =>
              simp only [later] at h
              cases h

end

/-- Compilation is naming, and then building the scene that the names say. -/
theorem compile_eq (tree : Tree α) :
    tree.compile = (tree.named .top []).map NamedTree.scene := by
  rw [compile]
  cases h : tree.named .top [] with
  | error error =>
      have refused : tree.place .top ⟨[], []⟩ = .error error := place_of_named_error h
      rw [refused]
      rfl
  | ok result =>
      have placed : tree.place .top ⟨[], []⟩ = .ok _ := place_of_named h List.prefix_rfl
      rw [placed]
      simp only [Except.map, Draft.extended, List.nil_append]
      rfl

end Tree

/-! ## Scenes of named trees -/

/-- Nodes have different names, and no name is denoted that none of them has. -/
structure NamedTree.WellNamed {α : Type u} (tree : NamedTree α) : Prop where
  distinct : tree.names.Nodup
  resolved : tree.Resolved tree.names

/-- Every scene of a tree is that of a well named tree. -/
theorem Tree.exists_named_of_compile {tree : Tree α} {scene : Scene α}
    (h : tree.compile = .ok scene) :
    ∃ result : NamedTree α, tree.named .top [] = .ok result ∧ result.WellNamed ∧
      scene = result.scene := by
  rw [Tree.compile_eq] at h
  cases found : tree.named .top [] with
  | error error =>
      rw [found] at h
      cases h
  | ok result =>
      rw [found] at h
      cases h
      have distinct := Tree.nodup_names List.nodup_nil found
      have resolved := Tree.resolved_named found
      exact ⟨result, rfl, ⟨distinct, resolved⟩, rfl⟩

namespace NamedTree

variable {tree : NamedTree α} {node : NamedNode α} {operator : Operator α}

omit [Scalar α] in
/-- All names that a node has to do with are names of nodes. -/
theorem WellNamed.mem_names (named : tree.WellNamed) (member : node ∈ tree.preorder) :
    ∀ name ∈ node.name :: node.children, name ∈ tree.names := by
  intro name denoted
  rcases List.mem_cons.mp denoted with rfl | denoted
  · exact List.mem_map_of_mem member
  · exact named.resolved.children node member denoted

theorem mem_operators_scene :
    operator ∈ tree.scene.operators ↔
      ∃ node ∈ tree.preorder, node.operator? tree.names = some operator := by
  rw [scene, List.mem_filterMap]
  simp only [tree.postorder_perm.mem_iff]

omit [Scalar α] in
/-- The node and its children are entities of the scene. -/
theorem rank_lt_length (named : tree.WellNamed) (member : node ∈ tree.preorder) :
    ∀ rank ∈ (node.name :: node.children).map tree.names.idxOf, rank < tree.names.length := by
  intro rank listed
  obtain ⟨name, denoted, rfl⟩ := List.mem_map.mp listed
  exact List.idxOf_lt_length_of_mem (named.mem_names member name denoted)

omit [Scalar α] in
/-- Distinct names have distinct ranks. -/
theorem nodup_ranks (named : tree.WellNamed) (member : node ∈ tree.preorder)
    (apart : (node.name :: node.children).Nodup) :
    ((node.name :: node.children).map tree.names.idxOf).Nodup := by
  apply apart.map_on
  intro first denoted second _ same
  exact (List.idxOf_inj (named.mem_names member first denoted)).mp same

theorem slotCount_scene (tree : NamedTree α) :
    tree.scene.slotCount = slotsPerEntity * tree.names.length := by
  rw [Scene.slotCount, ← ids_scene, Scene.ids, List.length_map]

theorem inside_scene (named : tree.WellNamed) :
    ∀ operator ∈ tree.scene.operators, operator.Inside tree.scene.slotCount := by
  intro operator member
  obtain ⟨node, listed, found⟩ := mem_operators_scene.mp member
  rw [slotCount_scene]
  exact Shape.inside_of_operator? found (rank_lt_length named listed)

theorem onEntities_scene : ∀ operator ∈ tree.scene.operators, operator.OnEntities := by
  intro operator member
  obtain ⟨node, _, found⟩ := mem_operators_scene.mp member
  exact Shape.onEntities_of_operator? found

/-- Two boxes that are set belong to two nodes. -/
theorem pairwise_boxes_scene (named : tree.WellNamed) :
    tree.scene.operators.Pairwise fun first second =>
      first.IsBackground → second.IsBackground → first.slots.Disjoint second.slots := by
  have apart : tree.postorder.Pairwise fun first second =>
      first.name ∈ tree.names ∧ first.name ≠ second.name := by
    have names : (tree.postorder.map NamedNode.name).Nodup :=
      (tree.postorder_perm.map _).nodup_iff.mpr named.distinct
    apply (List.pairwise_map.mp names).imp_of_mem
    intro first second inFirst _ different
    exact ⟨List.mem_map_of_mem (tree.postorder_perm.mem_iff.mp inFirst), different⟩
  rw [scene]
  apply apart.filterMap
  rintro first second ⟨known, different⟩ operator found operator' found' box box' slot own own'
  have owner := Shape.owner_eq_of_isBackground found box own
  have owner' := Shape.owner_eq_of_isBackground found' box' own'
  rw [owner] at owner'
  exact different ((List.idxOf_inj known).mp owner')

theorem disjoint_boxes_scene (named : tree.WellNamed) {i j : Nat} (apart : i ≠ j)
    {first second : Operator α} (atI : tree.scene.operators[i]? = some first)
    (atJ : tree.scene.operators[j]? = some second) (box : first.IsBackground)
    (box' : second.IsBackground) : first.slots.Disjoint second.slots := by
  obtain ⟨smallI, rfl⟩ := List.getElem?_eq_some_iff.mp atI
  obtain ⟨smallJ, rfl⟩ := List.getElem?_eq_some_iff.mp atJ
  have pairs := List.pairwise_iff_getElem.mp (pairwise_boxes_scene named)
  rcases Nat.lt_or_gt_of_ne apart with before | after
  · exact pairs i j smallI smallJ before box box'
  · exact (pairs j i smallJ smallI after box' box).symm

end NamedTree

end SceneLayout
