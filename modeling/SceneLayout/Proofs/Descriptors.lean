import SceneLayout.Proofs.Boxes
import SceneLayout.Proofs.Compilation

/-!
# Compilation in two phases

Operators can also be built after the walk over the tree. The walk then collects the records
and a descriptor of each node that is to have an operator, with ids for the node and its
children, and the ids are looked up in the index of all records. The second phase can
fail in itself: an id may be missing, or a descriptor may have no operator. After a walk
it never does, and it builds the operators that compilation builds.

Main statement: `compile_eq_survey`.
-/

namespace SceneLayout

variable {α : Type}

/-- A node that is to have an operator, with the ids of its record and of its children. -/
structure Descriptor (α : Type) where
  shape : Shape α
  container : String
  children : List String

/-- Why a descriptor has no operator. -/
inductive ResolveError where
  | missingId (id : String)
  | missingChild
  | noOperator
deriving DecidableEq

namespace Descriptor

/-- The first slot of an id. -/
def base (index : Entries Nat) (id : String) : Except ResolveError Nat :=
  match Entries.find? index id with
  | some base => .ok base
  | none => .error (.missingId id)

/-- The slots of an id along an axis. -/
def span (index : Entries Nat) (axis : Axis) (id : String) : Except ResolveError Span := do
  let base ← base index id
  return ⟨base + axis.position, base + axis.extent⟩

/-- The operator that aligns the entities of ids. -/
def align (index : Entries Nat) (axis : Axis) (alignment : Alignment) (children : List String) :
    Except ResolveError (Operator α) :=
  match alignment with
  | .start => do
      let bases ← children.mapM (base index)
      return .alignNear (bases.map fun base => base + axis.position)
  | .finish => return .alignFar (← children.mapM (span index axis))
  | .center =>
      match axis, children.getLast?, children.dropLast with
      | .x, some last, first :: others =>
          return .centerOn (← span index .x last) (← (first :: others).mapM (span index .x))
      | _, _, _ => return .alignCenter (← children.mapM (span index axis))

/-- The operator of a descriptor. -/
def operator (index : Entries Nat) (descriptor : Descriptor α) : Except ResolveError (Operator α) :=
  match descriptor.shape with
  | .stack axis spacing alignment => do
      let children ← descriptor.children.mapM (base index)
      let container ← base index descriptor.container
      return .stack axis children container spacing alignment
  | .align axis alignment => align index axis alignment descriptor.children
  | .distribute axis spacing =>
      return .distribute (← descriptor.children.mapM (span index axis)) spacing
  | .background padding _ =>
      match descriptor.children with
      | [] => .error .missingChild
      | child :: _ =>
          return .background (← base index child) (← base index descriptor.container) padding
  | _ => .error .noOperator

end Descriptor

/-- The descriptor of a node that is to have an operator. A background looks at its first child
only. -/
def NamedNode.descriptor? (node : NamedNode α) : Option (Descriptor α) :=
  match node.shape, node.children with
  | .stack axis spacing alignment, children =>
      some ⟨.stack axis spacing alignment, node.name, children⟩
  | .align axis alignment, children => some ⟨.align axis alignment, node.name, children⟩
  | .distribute axis spacing, children => some ⟨.distribute axis spacing, node.name, children⟩
  | .background padding style, first :: _ => some ⟨.background padding style, node.name, [first]⟩
  | _, _ => none

/-! ## Looking up -/

section Index

variable {index : Entries Nat} {rankOf : String → Nat}

theorem Descriptor.base_eq_ok {id : String} {place : Nat}
    (found : Entries.find? index id = some place) : base index id = .ok place := by
  rw [base, found]

theorem Descriptor.span_eq_ok {id : String} {rank : Nat}
    (found : Entries.find? index id = some (baseOf rank)) (axis : Axis) :
    span index axis id = .ok (spanOf axis rank) := by
  rw [span, base_eq_ok found]
  rfl

variable {children : List String}
  (found : ∀ id ∈ children, Entries.find? index id = some (baseOf (rankOf id)))
include found

theorem Descriptor.mapM_base_eq_ok :
    children.mapM (base index) = .ok ((children.map rankOf).map baseOf) := by
  rw [List.map_map]
  exact mapM_eq_ok fun id member => base_eq_ok (found id member)

theorem Descriptor.mapM_span_eq_ok (axis : Axis) :
    children.mapM (span index axis) = .ok ((children.map rankOf).map (spanOf axis)) := by
  rw [List.map_map]
  exact mapM_eq_ok fun id member => span_eq_ok (found id member) axis

theorem Descriptor.align_eq_ok (axis : Axis) (alignment : Alignment) :
    (align index axis alignment children : Except ResolveError (Operator α)) =
      .ok (alignOperator axis alignment (children.map rankOf)) := by
  cases alignment with
  | start =>
      rw [align, mapM_base_eq_ok found, alignOperator]
      simp only [bind, Except.bind, List.map_map]
      rfl
  | finish =>
      rw [align, mapM_span_eq_ok found]
      rfl
  | center =>
      have mean : (return .alignCenter (← children.mapM (span index axis)) :
          Except ResolveError (Operator α)) =
            .ok (.alignCenter ((children.map rankOf).map (spanOf axis))) := by
        rw [mapM_span_eq_ok found]
        rfl
      rcases List.eq_nil_or_concat' children with rfl | ⟨others, last, rfl⟩
      · cases axis <;> exact mean
      cases axis with
      | y => exact mean
      | x =>
          cases others with
          | nil => exact mean
          | cons first rest =>
              have anchor := span_eq_ok (found last (by simp)) .x
              have pairs : (first :: rest).mapM (span index .x) =
                  .ok (((first :: rest).map rankOf).map (spanOf .x)) :=
                mapM_span_eq_ok (fun id member => found id (List.mem_append_left _ member)) .x
              have built : (alignOperator .x .center ((first :: rest ++ [last]).map rankOf) :
                  Operator α) = .centerOn (spanOf .x (rankOf last))
                    (((first :: rest).map rankOf).map (spanOf .x)) := by
                simp only [alignOperator, List.map_append, List.map_cons, List.map_nil,
                  List.getLast?_concat, List.dropLast_concat]
              rw [built]
              simp only [align, List.getLast?_concat, List.dropLast_concat]
              rw [anchor, pairs]
              rfl

end Index

/-- A descriptor whose ids are all in the index has the operator that compilation builds. -/
theorem NamedNode.operator_descriptor? {index : Entries Nat} {names : List String}
    {node : NamedNode α} {descriptor : Descriptor α} (noted : node.descriptor? = some descriptor)
    (found : ∀ id ∈ node.name :: node.children,
      Entries.find? index id = some (baseOf (names.idxOf id))) :
    ∃ operator, node.operator? names = some operator ∧
      descriptor.operator index = .ok operator := by
  obtain ⟨name, shape, children⟩ := node
  have container := Descriptor.base_eq_ok (found name List.mem_cons_self)
  have below : ∀ id ∈ children, Entries.find? index id = some (baseOf (names.idxOf id)) :=
    fun id member => found id (List.mem_cons_of_mem _ member)
  cases shape with
  | stack axis spacing alignment =>
      cases noted
      refine ⟨_, rfl, ?_⟩
      simp only [Descriptor.operator, Descriptor.mapM_base_eq_ok below, container]
      rfl
  | align axis alignment =>
      cases noted
      exact ⟨_, rfl, Descriptor.align_eq_ok below axis alignment⟩
  | distribute axis spacing =>
      cases noted
      refine ⟨_, rfl, ?_⟩
      simp only [Descriptor.operator, Descriptor.mapM_span_eq_ok below]
      rfl
  | background padding style =>
      cases children with
      | nil => cases noted
      | cons first rest =>
          cases noted
          refine ⟨_, rfl, ?_⟩
          have child := Descriptor.base_eq_ok (below first List.mem_cons_self)
          simp only [Descriptor.operator, child, container]
          rfl
  | _ => cases noted

/-- A node without a descriptor has no operator. -/
theorem NamedNode.operator?_of_descriptor? {node : NamedNode α} (h : node.descriptor? = none)
    (names : List String) : node.operator? names = none := by
  obtain ⟨name, shape, children⟩ := node
  cases shape with
  | stack | align | distribute => cases h
  | background padding style =>
      cases children with
      | nil => rfl
      | cons first rest => cases h
  | _ => rfl

/-! ## The walk and the lookup -/

/-- What the walk over a tree collects. -/
structure Survey (α : Type) where
  records : List (Record α)
  descriptors : List (Descriptor α)

namespace Survey

/-- The first slots of the ids of all records. -/
def index (survey : Survey α) : Entries Nat := Scene.index ⟨survey.records, []⟩

/-- The operators of the descriptors. -/
def operators (survey : Survey α) : Except ResolveError (List (Operator α)) :=
  survey.descriptors.mapM (Descriptor.operator survey.index)

end Survey

variable [Scalar α]

/-- What the walk over a named tree collects. -/
def NamedTree.survey (tree : NamedTree α) : Survey α where
  records := tree.preorder.map NamedNode.record
  descriptors := tree.postorder.filterMap NamedNode.descriptor?

/-- The walk over a tree. -/
def Tree.survey (tree : Tree α) : Except CompileError (Survey α) :=
  (tree.named .top []).map NamedTree.survey

omit [Scalar α] in
/-- The index of every scene with distinct ids has each of them with the first slot of its rank. -/
theorem Scene.find?_index {scene : Scene α} (distinct : scene.ids.Nodup) {id : String}
    (member : id ∈ scene.ids) :
    Entries.find? scene.index id = some (baseOf (scene.ids.idxOf id)) := by
  have keys : Entries.keys (scene.records.mapIdx fun rank record => (record.id, baseOf rank)) =
      scene.ids := by
    apply List.ext_getElem?
    intro rank
    rw [Entries.keys, List.getElem?_map, List.getElem?_mapIdx, Option.map_map, ids,
      List.getElem?_map]
    rfl
  rw [index, Entries.ofList_of_nodup (by rwa [keys])]
  apply Entries.find?_of_getElem? (by rwa [keys])
  have here := List.getElem?_idxOf member
  rw [ids, List.getElem?_map] at here
  obtain ⟨record, atRank, same⟩ := Option.map_eq_some_iff.mp here
  rw [List.getElem?_mapIdx, ids, atRank, ← same]
  rfl

theorem NamedTree.find?_index_survey {tree : NamedTree α} (well : tree.WellNamed) {name : String}
    (known : name ∈ tree.names) :
    Entries.find? tree.survey.index name = some (baseOf (tree.names.idxOf name)) := by
  have ids : (Scene.ids ⟨tree.survey.records, []⟩ : List String) = tree.names := tree.ids_scene
  rw [← ids] at known ⊢
  exact Scene.find?_index (by rw [ids]; exact well.distinct) known

/-- Looking up what the walk has collected never fails, and gives the operators of the scene. -/
theorem NamedTree.operators_survey {tree : NamedTree α} (well : tree.WellNamed) :
    tree.survey.operators = .ok tree.scene.operators := by
  have resolved : ∀ nodes ⊆ tree.preorder,
      (nodes.filterMap NamedNode.descriptor?).mapM (Descriptor.operator tree.survey.index) =
        .ok (nodes.filterMap (NamedNode.operator? tree.names)) := by
    intro nodes among
    induction nodes with
    | nil => rfl
    | cons node rest ih =>
        have member := among List.mem_cons_self
        have later := ih fun other listed => among (List.mem_cons_of_mem _ listed)
        cases noted : node.descriptor? with
        | none =>
            rw [List.filterMap_cons_none noted,
              List.filterMap_cons_none (NamedNode.operator?_of_descriptor? noted _)]
            exact later
        | some descriptor =>
            obtain ⟨operator, built, found⟩ := NamedNode.operator_descriptor? noted
              fun id denoted => find?_index_survey well (well.mem_names member id denoted)
            rw [List.filterMap_cons_some noted, List.filterMap_cons_some built, List.mapM_cons,
              found, later]
            rfl
  exact resolved tree.postorder tree.postorder_perm.subset

/-- A tree has a scene exactly if the walk over it succeeds. Then looking up cannot fail, and the
scene consists of the collected records and of the operators that are looked up. -/
theorem Tree.compile_eq_survey (tree : Tree α) :
    (∃ error, tree.survey = .error error ∧ tree.compile = .error error) ∨
      ∃ survey operators, tree.survey = .ok survey ∧ survey.operators = .ok operators ∧
        tree.compile = .ok ⟨survey.records, operators⟩ := by
  rw [survey, compile_eq]
  cases naming : tree.named .top [] with
  | error error => exact .inl ⟨error, rfl, rfl⟩
  | ok named =>
      have well : named.WellNamed :=
        ⟨Tree.nodup_names List.nodup_nil naming, Tree.resolved_named naming⟩
      exact .inr ⟨_, _, rfl, NamedTree.operators_survey well, rfl⟩

end SceneLayout
