import Mathlib.Data.List.Basic
import SceneLayout.Proofs.ShownValues
import SceneLayout.Tree.Loose

/-!
# Which node is refused

Reading a tree goes through its nodes in preorder and looks at each one by itself: a node is refused
for its own fields and never for its children, and what stands below a reference is not looked at.
So a tree is refused exactly if one of these nodes is, for the reason of the first such node, and a
refused property or target names this node by its type and by the child indexes that lead to it.

Where members are looked up in a value that is no object, where a value cannot be looked for among
the types or has no parts to be children, and where a refused value cannot be shown, nothing is
named. No tree that was checked before it is read has values of the first kinds.

Main statement: `first_refused_node_decides`.

## Implementation notes

The nodes of a tree are a flat list of visits, so that one node is before another as in this list.
Whatever stands among the children of a node is visited, too, and is refused if it is no node.
The first item of a list on which a reader fails is told by an inductive relation, which splits
where two lists are joined.
-/

namespace SceneLayout

/-! ## The first failure in a list -/

section FirstFailure

variable {α β ε : Type} {read : α → Except ε β}

/-- A reader fails on an item of a list with an error, and on no item before it. -/
inductive FirstFailure (read : α → Except ε β) : List α → ε → Prop where
  | here {item : α} {rest : List α} {error : ε} (fails : read item = .error error) :
      FirstFailure read (item :: rest) error
  | later {item : α} {rest : List α} {error : ε} {value : β} (reads : read item = .ok value)
      (below : FirstFailure read rest error) : FirstFailure read (item :: rest) error

namespace FirstFailure

variable {items others : List α} {item : α} {error : ε}

theorem nil_iff : FirstFailure read [] error ↔ False :=
  ⟨fun fails => (by cases fails), False.elim⟩

theorem cons_iff :
    FirstFailure read (item :: items) error ↔
      read item = .error error ∨ (∃ value, read item = .ok value) ∧
        FirstFailure read items error := by
  constructor
  · intro fails
    cases fails with
    | here fails => exact .inl fails
    | later reads below => exact .inr ⟨⟨_, reads⟩, below⟩
  · rintro (fails | ⟨⟨value, reads⟩, below⟩)
    · exact .here fails
    · exact .later reads below

/-- There is a first failure exactly if there is any. -/
theorem exists_iff :
    (∃ error, FirstFailure read items error) ↔
      ∃ item ∈ items, ∃ error, read item = .error error := by
  induction items with
  | nil => simp [nil_iff]
  | cons item rest ih =>
      simp only [cons_iff, exists_or, exists_and_left, List.mem_cons, exists_eq_or_imp, ih]
      cases read item <;> simp

theorem forall_reads_iff :
    (∀ item ∈ items, ∃ value, read item = .ok value) ↔
      ∀ error, ¬ FirstFailure read items error := by
  rw [← not_exists, exists_iff, not_exists]
  refine forall_congr' fun item => ?_
  rw [not_and]
  refine imp_congr_right fun _ => ?_
  cases read item <;> simp

theorem append_iff :
    FirstFailure read (items ++ others) error ↔
      FirstFailure read items error ∨ (∀ item ∈ items, ∃ value, read item = .ok value) ∧
        FirstFailure read others error := by
  induction items with
  | nil => simp [nil_iff]
  | cons item rest ih =>
      rw [List.cons_append, cons_iff, ih, cons_iff, List.forall_mem_cons]
      tauto

theorem exists_split (h : FirstFailure read items error) :
    ∃ before item after, items = before ++ item :: after ∧
      (∀ earlier ∈ before, ∃ value, read earlier = .ok value) ∧ read item = .error error := by
  induction h with
  | @here item rest error fails => exact ⟨[], item, rest, rfl, List.forall_mem_nil _, fails⟩
  | @later first rest error value reads _ ih =>
      obtain ⟨before, item, after, rfl, earlier, fails⟩ := ih
      exact ⟨first :: before, item, after, rfl,
        List.forall_mem_cons.mpr ⟨⟨value, reads⟩, earlier⟩, fails⟩

end FirstFailure

end FirstFailure

/-! ## The nodes that are looked at -/

namespace LooseValue

/-- The children without the nodes among them. What is no list of children stays. -/
def bare : LooseValue → LooseValue
  | list _ => list []
  | other => other

/-- The node by itself, without its children. -/
def alone : LooseValue → LooseValue
  | node type id key props target children => node type id key props target children.bare
  | other => other

@[simp] theorem bare_node (type id key props target : Json) (children : LooseValue) :
    (node type id key props target children).bare = node type id key props target children := rfl

@[simp] theorem bare_plain (value : Json) : (plain value).bare = plain value := rfl

@[simp] theorem alone_list (items : List LooseValue) : (list items).alone = list items := rfl

@[simp] theorem alone_plain (value : Json) : (plain value).alone = plain value := rfl

/-- The type of a node. -/
def type? : LooseValue → Option Json
  | node type .. => some type
  | _ => none

mutual

/-- The nodes that reading looks at, in preorder, each with the child indexes that lead to it. -/
def visits (steps : List Nat) : LooseValue → List (List Nat × LooseValue)
  | node type id key props target children =>
      (steps, node type id key props target children) ::
        if isRef type then [] else visitsBelow steps children
  | list items => [(steps, list items)]
  | plain value => [(steps, plain value)]

/-- The nodes that reading looks at below a node with the given children. -/
def visitsBelow (steps : List Nat) : LooseValue → List (List Nat × LooseValue)
  | list items => visitsAll steps 0 items
  | node .. => []
  | plain _ => []

/-- The nodes that reading looks at in children, of which the first has the given index. -/
def visitsAll (steps : List Nat) : Nat → List LooseValue → List (List Nat × LooseValue)
  | _, [] => []
  | index, first :: rest => first.visits (steps ++ [index]) ++ visitsAll steps (index + 1) rest

end

/-- The node that child indexes lead to. -/
def descend : List Nat → LooseValue → Option LooseValue
  | [], value => some value
  | index :: steps, node _ _ _ _ _ (.list items) => items[index]?.bind (descend steps)
  | _ :: _, _ => none

mutual

theorem descend_of_mem_visits {steps there : List Nat} {found : LooseValue} :
    ∀ {value : LooseValue}, (there, found) ∈ value.visits steps →
      ∃ further, there = steps ++ further ∧ value.descend further = some found
  | node type id key props target children, visited => by
      rw [visits, List.mem_cons] at visited
      rcases visited with same | below
      · cases same
        exact ⟨[], (List.append_nil _).symm, rfl⟩
      · split at below
        · cases below
        · exact descend_of_mem_visitsBelow below
  | list items, visited | plain value, visited => by
      rw [visits, List.mem_singleton] at visited
      cases visited
      exact ⟨[], (List.append_nil _).symm, rfl⟩

theorem descend_of_mem_visitsBelow {steps there : List Nat} {found : LooseValue}
    {type id key props target : Json} : ∀ {children : LooseValue},
      (there, found) ∈ children.visitsBelow steps → ∃ further, there = steps ++ further ∧
        (node type id key props target children).descend further = some found
  | list items, visited => by
      rw [visitsBelow] at visited
      obtain ⟨index, further, child, listed, rfl, leads⟩ := descend_of_mem_visitsAll visited
      refine ⟨index :: further, by rw [Nat.zero_add], ?_⟩
      rw [descend, listed, Option.bind_some, leads]
  | node .., visited | plain _, visited => by
      rw [visitsBelow] at visited
      cases visited

theorem descend_of_mem_visitsAll {steps there : List Nat} {first : Nat} {found : LooseValue} :
    ∀ {items : List LooseValue}, (there, found) ∈ visitsAll steps first items →
      ∃ (index : Nat) (further : List Nat) (child : LooseValue), items[index]? = some child ∧
        there = steps ++ (first + index) :: further ∧ child.descend further = some found
  | [], visited => by
      rw [visitsAll] at visited
      cases visited
  | item :: rest, visited => by
      rw [visitsAll, List.mem_append] at visited
      rcases visited with here | later
      · obtain ⟨further, rfl, leads⟩ := descend_of_mem_visits here
        exact ⟨0, further, item, rfl, by simp, leads⟩
      · obtain ⟨index, further, child, listed, rfl, leads⟩ := descend_of_mem_visitsAll later
        exact ⟨index + 1, further, child, listed, by rw [Nat.add_right_comm, Nat.add_assoc], leads⟩

end

end LooseValue

/-! ## One node by itself -/

/-- The error, seen from another place of the node. -/
def LooseError.movedTo (path : TreePath) : LooseError → LooseError
  | node (.refused type _ refusal) => .node (.refused type path refusal)
  | node .unshown => .node .unshown
  | noMembers => .noMembers
  | wrongKind => .wrongKind

namespace LooseTree

variable {path : TreePath} {type id key props target : Json} {children : LooseValue}

theorem ofValue_of_ref (ref : LooseValue.isRef type = true) :
    ofValue path (.node type id key props target children) =
      if target.isVoid then .error (.node (.refused (some "Ref") path .missingTarget))
      else .ok (.ref target) := by
  rw [ofValue, if_pos ref]

theorem ofValue_of_not_ref (notRef : LooseValue.isRef type = false) :
    ofValue path (.node type id key props target children) =
      match LooseValue.shape? path type props with
      | .error error => .error error
      | .ok shape => (ofChildren path children).map (.node type key id shape) := by
  rw [ofValue]
  exact if_neg (Bool.eq_false_iff.mp notRef)

/-- Children without nodes among them are read alike in all places, and if they are refused, nothing
is told. -/
theorem ofChildren_bare (path : TreePath) (children : LooseValue) :
    (∀ other, ofChildren other children.bare = ofChildren path children.bare) ∧
      ∀ refusal, ofChildren path children.bare ≠ .error (.node refusal) := by
  cases children with
  | list items => simp [LooseValue.bare, ofChildren, ofItems]
  | node => simp [LooseValue.bare, ofChildren]
  | plain value =>
      refine ⟨fun other => ?_, fun refusal => ?_⟩
      · rw [LooseValue.bare_plain, ofChildren, ofChildren]
      · rw [LooseValue.bare_plain, ofChildren]
        split
        · nofun
        · cases value <;> nofun

end LooseTree

namespace LooseValue

theorem isRef_iff {type : Json} : isRef type = true ↔ type = .string "Ref" := by
  cases type <;> simp [isRef]

/-- Without members nothing is said about a property. -/
theorem shapeBeside_ne_node {props : Json} {shape : Shape Binary64} {refusal : NodeError} :
    shapeBeside props shape ≠ .error (.node refusal) := by
  unfold shapeBeside
  split
  · nofun
  · nofun
  · split <;> nofun
  · nofun

section Shape

variable {path : TreePath} {name : String} {type props : Json} {members : Entries Json}

theorem shape?_of_members (found : members? props = some members) :
    shape? path (.string name) props =
      (Shape.ofProps (some name) members).mapError fun error =>
        .node (error.inNode (some name) path) := by
  rw [shape?]
  dsimp only
  rw [found]

theorem shape?_of_no_members (none : members? props = none) :
    shape? path (.string name) props =
      match Shape.ofProps (some name) [] with
      | .error error => .error (.node (error.inNode (some name) path))
      | .ok shape => shapeBeside props shape := by
  rw [shape?]
  dsimp only
  rw [none]
  cases Shape.ofProps (some name) [] <;> rfl

theorem shape?_of_no_text (other : ∀ name, type ≠ .string name) :
    shape? path type props =
      match type.display? with
      | none => .error (.node .unshown)
      | some _ => if isSingle type then .ok (.container none) else .error .wrongKind := by
  unfold shape?
  split
  · next name => exact absurd rfl (other name)
  · rfl

theorem movedTo_inNode (other : TreePath) (type : Option String) (error : PropertyError) :
    LooseError.movedTo other (.node (error.inNode type path)) =
      .node (error.inNode type other) := by
  cases error <;> rfl

/-- The place of a node is only told and never looked at. -/
theorem shape?_movedTo (path other : TreePath) (type props : Json) :
    shape? other type props = (shape? path type props).mapError (LooseError.movedTo other) := by
  by_cases text : ∃ name, type = .string name
  · obtain ⟨name, rfl⟩ := text
    cases found : members? props with
    | some members =>
        rw [shape?_of_members found, shape?_of_members found]
        cases Shape.ofProps (some name) members with
        | error error => simp only [Except.mapError, movedTo_inNode]
        | ok shape => rfl
    | none =>
        rw [shape?_of_no_members found, shape?_of_no_members found]
        cases Shape.ofProps (some name) [] with
        | error error => simp only [Except.mapError, movedTo_inNode]
        | ok shape =>
            have untold := @shapeBeside_ne_node props shape
            dsimp only
            cases beside : shapeBeside props shape with
            | ok _ => rfl
            | error error =>
                cases error with
                | node refusal => exact absurd beside untold
                | noMembers | wrongKind => rfl
  · have other : ∀ name, type ≠ .string name := fun name same => text ⟨name, same⟩
    rw [shape?_of_no_text other, shape?_of_no_text other]
    cases type.display? with
    | none => rfl
    | some _ =>
        dsimp only
        split <;> rfl

/-- All that the own fields of a node can be refused for: a property; properties that have no
members to be looked up; a type that cannot be shown, or one that cannot be looked for. -/
theorem of_shape?_eq_error {error : LooseError} (refused : shape? path type props = .error error) :
    (∃ name cause, type = .string name ∧ error = .node (cause.inNode (some name) path) ∧
      Shape.ofProps (some name) ((members? props).getD []) = .error cause) ∨
    (members? props = none ∧ ∃ shape, shapeBeside props shape = .error error) ∨
    (type.display? = none ∧ error = .node .unshown) ∨
    (isSingle type = false ∧ error = .wrongKind) := by
  by_cases text : ∃ name, type = .string name
  · obtain ⟨name, rfl⟩ := text
    cases found : members? props with
    | some members =>
        rw [shape?_of_members found] at refused
        cases read : Shape.ofProps (some name) members with
        | error cause =>
            rw [read] at refused
            cases refused
            exact .inl ⟨name, cause, rfl, rfl, read⟩
        | ok shape =>
            rw [read] at refused
            cases refused
    | none =>
        rw [shape?_of_no_members found] at refused
        cases read : Shape.ofProps (some name) [] with
        | error cause =>
            rw [read] at refused
            cases refused
            exact .inl ⟨name, cause, rfl, rfl, read⟩
        | ok shape =>
            rw [read] at refused
            exact .inr (.inl ⟨rfl, shape, refused⟩)
  · rw [shape?_of_no_text fun name same => text ⟨name, same⟩] at refused
    split at refused
    · next hidden =>
        cases refused
        exact .inr (.inr (.inl ⟨hidden, rfl⟩))
    · split at refused <;> cases refused
      next many => exact .inr (.inr (.inr ⟨Bool.eq_false_iff.mpr many, rfl⟩))

/-- A property is refused with the type and the place of its node. -/
theorem eq_of_shape? {told : Option String} {place : TreePath} {refusal : Refusal}
    (refused : shape? path type props = .error (.node (.refused told place refusal))) :
    ∃ name, type = .string name ∧ told = some name ∧ place = path := by
  obtain ⟨name, cause, rfl, same, -⟩ | ⟨-, shape, beside⟩ | ⟨-, same⟩ | ⟨-, same⟩ :=
    of_shape?_eq_error refused
  · refine ⟨name, rfl, ?_⟩
    cases cause <;> cases same
    exact ⟨rfl, rfl⟩
  · exact absurd beside shapeBeside_ne_node
  · cases same
  · cases same

/-- The values of a node can be used in their places: the type is neither a list nor an object, and,
but for references, which do without them, the properties are an object or void, and the children
a list or void. -/
inductive Usable : LooseValue → Prop where
  | node {type id key props target : Json} {children : LooseValue}
      (single : isSingle type = true)
      (properties : isRef type = true ∨ ∃ members, members? props = some members)
      (parts : isRef type = true ∨ (∃ items, children = list items) ∨
        ∃ value, children = plain value ∧ value.isVoid = true) :
      Usable (node type id key props target children)

/-- The type and the properties of a node can be shown. -/
def Shown : LooseValue → Prop
  | node type _ _ props _ _ => type.Shown ∧ props.Shown
  | _ => True

/-- Where values can be used nothing is refused but properties. -/
theorem exists_of_shape? {error : LooseError} (single : isSingle type = true)
    (found : members? props = some members) (refused : shape? path type props = .error error) :
    ∃ refusal, error = .node refusal := by
  obtain ⟨name, cause, -, same, -⟩ | ⟨none, -⟩ | ⟨-, same⟩ | ⟨many, -⟩ :=
    of_shape?_eq_error refused
  · exact ⟨_, same⟩
  · cases found.symm.trans none
  · exact ⟨_, same⟩
  · cases single.symm.trans many

theorem shown_of_members? (shown : props.Shown) :
    (Json.object ((members? props).getD [])).Shown := by
  have empty : (Json.object []).Shown := Json.shown_object_iff.mpr (List.forall_mem_nil _)
  cases props with
  | object entries => exact shown
  | _ =>
      simp only [members?]
      split <;> exact empty

/-- Where values can be shown a refused property is told. -/
theorem shape?_ne_unshown (typeShown : type.Shown) (propsShown : props.Shown) :
    shape? path type props ≠ .error (.node .unshown) := by
  intro refused
  obtain ⟨name, cause, -, same, read⟩ | ⟨-, shape, beside⟩ | ⟨hidden, -⟩ | ⟨-, same⟩ :=
    of_shape?_eq_error refused
  · have told := Property.tells_shape (shown_of_members? propsShown) (some name)
    rw [read] at told
    cases cause with
    | refused refusal => cases same
    | unshown => exact told rfl
  · exact shapeBeside_ne_node beside
  · obtain ⟨text, shown⟩ := typeShown
    cases hidden.symm.trans shown
  · cases same

end Shape

end LooseValue

namespace LooseTree

theorem ofValue_alone_movedTo (path other : TreePath) (value : LooseValue) :
    ofValue other value.alone = (ofValue path value.alone).mapError (LooseError.movedTo other) := by
  cases value with
  | node type id key props target children =>
      cases ref : LooseValue.isRef type with
      | true =>
          rw [LooseValue.alone, ofValue_of_ref ref, ofValue_of_ref ref]
          split <;> rfl
      | false =>
          obtain ⟨same, untold⟩ := ofChildren_bare path children
          rw [LooseValue.alone, ofValue_of_not_ref ref, ofValue_of_not_ref ref,
            LooseValue.shape?_movedTo path other, same other]
          cases LooseValue.shape? path type props with
          | error error => rfl
          | ok shape =>
              cases below : ofChildren path children.bare with
              | ok trees => rfl
              | error error =>
                  cases error with
                  | node refusal => exact absurd below (untold refusal)
                  | noMembers | wrongKind => rfl
  | list | plain =>
      simp only [LooseValue.alone_list, LooseValue.alone_plain, ofValue]
      rfl

/-- A refusal tells the type and the place of its node. -/
theorem eq_of_ofValue_alone {path place : TreePath} {value : LooseValue} {told : Option String}
    {refusal : Refusal}
    (refused : ofValue path value.alone = .error (.node (.refused told place refusal))) :
    ∃ name, value.type? = some (.string name) ∧ told = some name ∧ place = path := by
  cases value with
  | node type id key props target children =>
      cases ref : LooseValue.isRef type with
      | true =>
          obtain rfl := LooseValue.isRef_iff.mp ref
          rw [LooseValue.alone, ofValue_of_ref ref] at refused
          split at refused
          · cases refused
            exact ⟨"Ref", rfl, rfl, rfl⟩
          · cases refused
      | false =>
          rw [LooseValue.alone, ofValue_of_not_ref ref] at refused
          split at refused
          · next error shapeless =>
              cases refused
              obtain ⟨name, rfl, named⟩ := LooseValue.eq_of_shape? shapeless
              exact ⟨name, rfl, named⟩
          · cases below : ofChildren path children.bare with
            | ok trees =>
                rw [below] at refused
                cases refused
            | error error =>
                rw [below] at refused
                cases refused
                exact absurd below ((ofChildren_bare path children).2 _)
  | list | plain =>
      simp only [LooseValue.alone_list, LooseValue.alone_plain, ofValue] at refused
      cases refused

theorem exists_of_ofValue_alone {path : TreePath} {value : LooseValue} {error : LooseError}
    (usable : value.Usable) (refused : ofValue path value.alone = .error error) :
    ∃ refusal, error = .node refusal := by
  obtain ⟨single, properties, parts⟩ := usable
  next type id key props target children =>
  cases ref : LooseValue.isRef type with
  | true =>
      rw [LooseValue.alone, ofValue_of_ref ref] at refused
      split at refused
      · cases refused
        exact ⟨_, rfl⟩
      · cases refused
  | false =>
      simp only [ref, Bool.false_eq_true, false_or] at properties parts
      obtain ⟨members, found⟩ := properties
      have below : ofChildren path children.bare = .ok [] := by
        rcases parts with ⟨items, rfl⟩ | ⟨value, rfl, void⟩
        · rw [LooseValue.bare, ofChildren, ofItems]
        · rw [LooseValue.bare, ofChildren, if_pos void]
          exact nofun
      rw [LooseValue.alone, ofValue_of_not_ref ref, below] at refused
      split at refused
      · next cause shapeless =>
          cases refused
          exact LooseValue.exists_of_shape? single found shapeless
      · cases refused

theorem ofValue_alone_ne_unshown {path : TreePath} {value : LooseValue} (shown : value.Shown) :
    ofValue path value.alone ≠ .error (.node .unshown) := by
  cases value with
  | node type id key props target children =>
      obtain ⟨typeShown, propsShown⟩ := shown
      cases ref : LooseValue.isRef type with
      | true =>
          rw [LooseValue.alone, ofValue_of_ref ref]
          split <;> nofun
      | false =>
          rw [LooseValue.alone, ofValue_of_not_ref ref]
          have told : LooseValue.shape? path type props ≠ .error (.node .unshown) :=
            LooseValue.shape?_ne_unshown typeShown propsShown
          cases shaped : LooseValue.shape? path type props with
          | error error =>
              rw [shaped] at told
              exact fun same => told (congrArg _ (Except.error.inj same))
          | ok shape =>
              have untold := (ofChildren_bare path children).2 .unshown
              dsimp only
              cases below : ofChildren path children.bare with
              | error error =>
                  rw [below] at untold
                  exact fun same => untold (congrArg _ (Except.error.inj same))
              | ok trees => nofun
  | list | plain =>
      simp only [LooseValue.alone_list, LooseValue.alone_plain, ofValue]
      nofun

/-! ## Reading in preorder -/

/-- Reads one of the nodes of a tree by itself. -/
def ofVisit (root : String) (visit : List Nat × LooseValue) : Except LooseError LooseTree :=
  ofValue ⟨root, visit.1⟩ visit.2.alone

variable {root : String}

mutual

/-- A tree is refused as the first of its nodes that is refused by itself. -/
theorem ofValue_eq_error_iff {steps : List Nat} {error : LooseError} : ∀ {value : LooseValue},
    ofValue ⟨root, steps⟩ value = .error error ↔
      FirstFailure (ofVisit root) (value.visits steps) error
  | .node type id key props target children => by
      rw [LooseValue.visits, FirstFailure.cons_iff, ofVisit, LooseValue.alone]
      cases ref : LooseValue.isRef type with
      | true =>
          rw [if_pos rfl, FirstFailure.nil_iff, and_false, or_false, ofValue_of_ref ref,
            ofValue_of_ref ref]
      | false =>
          rw [if_neg Bool.false_ne_true, ofValue_of_not_ref ref, ofValue_of_not_ref ref]
          -- The children are looked at only if the node itself is not refused.
          cases LooseValue.shape? ⟨root, steps⟩ type props with
          | error reason => simp
          | ok shape =>
              have below : ofChildren ⟨root, steps⟩ children = .error error ↔ _ :=
                ofChildren_eq_error_iff
              dsimp only
              generalize ofChildren ⟨root, steps⟩ children = reading,
                ofChildren ⟨root, steps⟩ children.bare = bare at below ⊢
              cases reading <;> cases bare <;> simpa [Except.map] using below
  | .list items => by
      rw [LooseValue.visits, FirstFailure.cons_iff, FirstFailure.nil_iff, and_false, or_false]
      rfl
  | .plain value => by
      rw [LooseValue.visits, FirstFailure.cons_iff, FirstFailure.nil_iff, and_false, or_false]
      rfl

/-- The children of a node are refused as they are without the nodes among them, or as the first of
these that is refused by itself. -/
theorem ofChildren_eq_error_iff {steps : List Nat} {error : LooseError} :
    ∀ {children : LooseValue}, ofChildren ⟨root, steps⟩ children = .error error ↔
      ofChildren ⟨root, steps⟩ children.bare = .error error ∨
        (∃ trees, ofChildren ⟨root, steps⟩ children.bare = .ok trees) ∧
          FirstFailure (ofVisit root) (children.visitsBelow steps) error
  | .list items => by
      rw [LooseValue.bare, LooseValue.visitsBelow, ofChildren, ofChildren, ofItems,
        ofItems_eq_error_iff]
      simp
  | .node .. | .plain _ => by
      simp only [LooseValue.bare_node, LooseValue.bare_plain, LooseValue.visitsBelow,
        FirstFailure.nil_iff, and_false, or_false]

theorem ofItems_eq_error_iff {steps : List Nat} {first : Nat} {error : LooseError} :
    ∀ {items : List LooseValue}, ofItems ⟨root, steps⟩ first items = .error error ↔
      FirstFailure (ofVisit root) (LooseValue.visitsAll steps first items) error
  | [] => by
      rw [ofItems, LooseValue.visitsAll, FirstFailure.nil_iff]
      simp
  | child :: rest => by
      have here : ∀ error, ofValue ⟨root, steps ++ [first]⟩ child = .error error ↔
          FirstFailure (ofVisit root) (child.visits (steps ++ [first])) error :=
        fun _ => ofValue_eq_error_iff
      rw [ofItems, LooseValue.visitsAll, FirstFailure.append_iff, ← ofItems_eq_error_iff,
        FirstFailure.forall_reads_iff, TreePath.child]
      simp only [← here]
      cases ofValue ⟨root, steps ++ [first]⟩ child with
      | error reason => simp
      | ok tree => cases ofItems ⟨root, steps⟩ (first + 1) rest <;> simp [Except.map]

end

end LooseTree

/-! ## Checked nodes -/

namespace RawNode

/-- A text that may be absent as a value. -/
def textValue : Option String → Json
  | some text => .string text
  | none => .null

mutual

/-- The node with its fields as values. -/
def loose : RawNode → LooseValue
  | ⟨type, id, key, props, children, target⟩ =>
      .node (textValue type) (textValue id) (textValue key) (.object props) (textValue target)
        (.list (looseAll children))

/-- The nodes with their fields as values. -/
def looseAll : List RawNode → List LooseValue
  | [] => []
  | first :: rest => first.loose :: looseAll rest

end

theorem shape?_textValue (path : TreePath) (type : Option String) (props : Entries Json) :
    LooseValue.shape? path (textValue type) (.object props) =
      (Shape.ofProps type props).mapError fun error => .node (error.inNode type path) := by
  cases type with
  | none =>
      rw [textValue, LooseValue.shape?_of_no_text (fun _ => Json.noConfusion), Json.display?]
      rfl
  | some type => exact LooseValue.shape?_of_members rfl

/-- Two readings are refused for the same reason, or none of them is. -/
inductive ReadAlike {α β : Type} : Except LooseError α → Except NodeError β → Prop where
  | refused (refusal : NodeError) : ReadAlike (.error (.node refusal)) (.error refusal)
  | read (loosely : α) (checked : β) : ReadAlike (.ok loosely) (.ok checked)

theorem ReadAlike.eq_error_iff {α β : Type} {loosely : Except LooseError α}
    {checked : Except NodeError β} {error : LooseError} (alike : ReadAlike loosely checked) :
    loosely = .error error ↔ ∃ refusal, error = .node refusal ∧ checked = .error refusal := by
  cases alike with
  | refused refusal => simp [eq_comm]
  | read _ _ => simp

mutual

/-- A node is read alike whether it was checked or not. -/
theorem readAlike_loose (path : TreePath) : ∀ raw : RawNode,
    ReadAlike (LooseTree.ofValue path raw.loose) (Tree.ofRaw path raw)
  | ⟨type, id, key, props, children, target⟩ => by
      rw [loose, Tree.ofRaw.eq_def]
      dsimp only
      by_cases ref : type = some "Ref"
      · subst ref
        rw [LooseTree.ofValue_of_ref rfl, if_pos (beq_self_eq_true _)]
        cases target with
        | none => exact .refused _
        | some target =>
            cases void : target.isEmpty with
            | true => simpa only [textValue, Json.isVoid, void, if_true] using .refused _
            | false => simpa only [textValue, Json.isVoid, void] using .read _ _
      · have notRef : LooseValue.isRef (textValue type) = false := by
          cases type with
          | none => rfl
          | some type => simpa [textValue, LooseValue.isRef] using ref
        rw [LooseTree.ofValue_of_not_ref notRef, if_neg (by simpa using ref), shape?_textValue]
        cases Shape.ofProps type props with
        | error cause => exact .refused _
        | ok shape =>
            have below := readAlike_looseAll path 0 children
            rw [LooseTree.ofChildren]
            dsimp only [Except.mapError]
            generalize LooseTree.ofItems path 0 (looseAll children) = loosely,
              Tree.ofRawAll path 0 children = checked at below ⊢
            cases below with
            | refused refusal => exact .refused refusal
            | read _ _ => exact .read _ _

theorem readAlike_looseAll (path : TreePath) (index : Nat) : ∀ raws : List RawNode,
    ReadAlike (LooseTree.ofItems path index (looseAll raws)) (Tree.ofRawAll path index raws)
  | [] => by
      rw [looseAll, LooseTree.ofItems, Tree.ofRawAll]
      exact .read _ _
  | raw :: rest => by
      have here := readAlike_loose (path.child index) raw
      have later := readAlike_looseAll path (index + 1) rest
      rw [looseAll, LooseTree.ofItems, Tree.ofRawAll]
      generalize LooseTree.ofValue (path.child index) raw.loose = loosely,
        Tree.ofRaw (path.child index) raw = checked at here ⊢
      generalize LooseTree.ofItems path (index + 1) (looseAll rest) = looselyAll,
        Tree.ofRawAll path (index + 1) rest = checkedAll at later ⊢
      cases here with
      | refused refusal => exact .refused refusal
      | read _ _ =>
          cases later with
          | refused refusal => exact .refused refusal
          | read _ _ => exact .read _ _

end

end RawNode

/-- The text of a place is that of the root and the child indexes, with points between them. -/
theorem TreePath.text_eq_intercalate (root : String) (steps : List Nat) :
    (⟨root, steps⟩ : TreePath).text = ".".intercalate (root :: steps.map toString) := by
  rw [text]
  dsimp only
  induction steps generalizing root with
  | nil => simp
  | cons index rest ih =>
      rw [List.foldl_cons, ih, List.map_cons]
      cases rest with
      | nil => simp [String.intercalate_cons_cons, String.append_assoc]
      | cons next rest => simp [String.intercalate_cons_cons, String.append_assoc]

/-- The child indexes lead to the first of the nodes looked at that is refused by itself. -/
structure LooseValue.FirstRefused (top : LooseValue) (steps : List Nat) (value : LooseValue) :
    Prop where
  leads : top.descend steps = some value
  first : ∃ before after, top.visits [] = before ++ (steps, value) :: after ∧
    ∀ earlier ∈ before, ∃ tree, LooseTree.ofValue .top earlier.2.alone = .ok tree

namespace LooseTree

section Refused

variable {raw : LooseValue} {visit : List Nat × LooseValue} {error : LooseError}

theorem exists_ok_top_of_ofVisit (reads : ∃ tree, ofVisit "0" visit = .ok tree) :
    ∃ tree, ofValue .top visit.2.alone = .ok tree := by
  obtain ⟨tree, reads⟩ := reads
  rw [ofVisit] at reads
  exact ⟨tree, by rw [ofValue_alone_movedTo ⟨"0", visit.1⟩, reads]; rfl⟩

theorem exists_error_ofVisit_iff :
    (∃ error, ofVisit "0" visit = .error error) ↔
      ∃ error, ofValue .top visit.2.alone = .error error := by
  rw [ofValue_alone_movedTo ⟨"0", visit.1⟩, ofVisit]
  cases ofValue ⟨"0", visit.1⟩ visit.2.alone <;> simp [Except.mapError]

/-- A refusal is that of the first node refused by itself, seen from its place. -/
theorem exists_firstRefused (refused : ofValue .top raw = .error error) :
    ∃ steps value, raw.FirstRefused steps value ∧ (steps, value) ∈ raw.visits [] ∧
      ofValue ⟨"0", steps⟩ value.alone = .error error := by
  obtain ⟨before, ⟨steps, value⟩, after, split, earlier, fails⟩ :=
    (ofValue_eq_error_iff.mp refused).exists_split
  have visited : (steps, value) ∈ raw.visits [] := by simp [split]
  obtain ⟨_, rfl, leads⟩ := LooseValue.descend_of_mem_visits visited
  exact ⟨steps, value, ⟨leads, before, after, split,
    fun visit member => exists_ok_top_of_ofVisit (earlier visit member)⟩, visited, fails⟩

theorem exists_error_iff :
    (∃ error, ofValue .top raw = .error error) ↔
      ∃ visit ∈ raw.visits [], ∃ error, ofValue .top visit.2.alone = .error error := by
  have refused : ∀ error, ofValue .top raw = .error error ↔
      FirstFailure (ofVisit "0") (raw.visits []) error := fun _ => ofValue_eq_error_iff
  simp only [refused, FirstFailure.exists_iff, exists_error_ofVisit_iff]

end Refused

end LooseTree

/-- A tree is refused as the first of its nodes in preorder that is refused by itself, and exactly
if there is one. The refusal of a property or of a target tells the type and the place of this
node. Nothing else is refused where all values can be used, nor in any checked tree, and it
is told wherever all values can be shown. -/
theorem first_refused_node_decides :
    (∀ raw : LooseValue,
      (∀ error, LooseTree.ofValue .top raw = .error error →
        ∃ steps value, raw.FirstRefused steps value ∧
          LooseTree.ofValue .top value.alone = .error (error.movedTo .top) ∧
          ∀ told place refusal, error = .node (.refused told place refusal) →
            ∃ type, value.type? = some (.string type) ∧
              (NodeError.refused told place refusal).message =
                type ++ "@" ++ ".".intercalate ("0" :: steps.map toString) ++ ": " ++
                  refusal.message) ∧
      ((∃ error, LooseTree.ofValue .top raw = .error error) ↔
        ∃ visit ∈ raw.visits [], ∃ error, LooseTree.ofValue .top visit.2.alone = .error error) ∧
      ((∀ visit ∈ raw.visits [], visit.2.Usable) →
        ∀ error, LooseTree.ofValue .top raw = .error error → ∃ refusal, error = .node refusal) ∧
      ((∀ visit ∈ raw.visits [], visit.2.Shown) →
        LooseTree.ofValue .top raw ≠ .error (.node .unshown))) ∧
    ∀ (raw : RawNode) (error : LooseError), LooseTree.ofValue .top raw.loose = .error error ↔
      ∃ refusal, error = .node refusal ∧ Tree.ofRaw .top raw = .error refusal := by
  refine ⟨fun raw => ⟨fun error refused => ?_, LooseTree.exists_error_iff,
      fun usable error refused => ?_, fun shown refused => ?_⟩,
    fun raw error => (RawNode.readAlike_loose .top raw).eq_error_iff⟩
  · obtain ⟨steps, value, first, -, fails⟩ := LooseTree.exists_firstRefused refused
    refine ⟨steps, value, first, ?_, ?_⟩
    · rw [LooseTree.ofValue_alone_movedTo ⟨"0", steps⟩, fails]
      rfl
    · intro told place refusal same
      rw [same] at fails
      obtain ⟨type, typed, isType, isPlace⟩ := LooseTree.eq_of_ofValue_alone fails
      refine ⟨type, typed, ?_⟩
      rw [isType, isPlace, ← TreePath.text_eq_intercalate]
      rfl
  · obtain ⟨steps, value, -, visited, fails⟩ := LooseTree.exists_firstRefused refused
    exact LooseTree.exists_of_ofValue_alone (usable _ visited) fails
  · obtain ⟨steps, value, -, visited, fails⟩ := LooseTree.exists_firstRefused refused
    exact LooseTree.ofValue_alone_ne_unshown (shown _ visited) fails

example :
    LooseTree.ofValue .top (.node (.string "Group") .null .null .null .null
        (.list [.node (.string "Circle") .null .null .null .null (.plain .null),
          .node (.string "Rect") .null .null (.object [("x", .bool true)]) .null
            (.plain (.int 5))])) =
      .error (.node (.refused (some "Rect") ⟨"0", [1]⟩ (.notFinite "x" "True"))) := rfl

/-- A node whose properties are a text is refused without its type and its place. -/
theorem textProps_refused_without_place :
    LooseTree.ofValue .top
          (.node (.string "Rect") .null .null (.string "abc") .null (.plain .null)) =
        .error .noMembers ∧
      ∀ refusal, LooseTree.ofValue .top
          (.node (.string "Rect") .null .null (.string "abc") .null (.plain .null)) ≠
        .error (.node refusal) :=
  ⟨rfl, fun _ located => by cases located⟩

end SceneLayout
