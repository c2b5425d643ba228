import Mathlib.Data.List.Forall2
import SceneLayout.Tree.Declared

/-!
# Which values declare which trees

A declaration is read in two steps, the check of its fields and the reading of its properties.
Here the steps are told by one relation between a value and a tree, node for node: the
fields of an object are those of a node, the items of its children declare the children of the
node, and its type and its properties declare the shape. The reader accepts a value exactly
if it declares some tree, and gives this tree.

Main statement: `ofJson?_eq_ok_iff`.

## Implementation notes

The relation is over any way `reads` to declare a shape, so that what holds of single shapes holds
of whole trees by `Mirrors.imp`.
-/

namespace SceneLayout

namespace Json

/-- The value is a text, or null for no text. -/
inductive StatesText : Json → Option String → Prop where
  | null : StatesText .null none
  | string (text : String) : StatesText (.string text) (some text)

/-- The value is an object with the members, or null for no members. -/
inductive StatesMembers : Json → Entries Json → Prop where
  | null : StatesMembers .null []
  | object (members : Entries Json) : StatesMembers (.object members) members

/-- The value is a list of the items, or null for no items. -/
inductive StatesItems : Json → List Json → Prop where
  | null : StatesItems .null []
  | array (items : List Json) : StatesItems (.array items) items

theorem StatesText.unique {value : Json} {text other : Option String} (h : value.StatesText text)
    (again : value.StatesText other) : text = other := by
  cases h <;> cases again <;> rfl

theorem StatesItems.unique {value : Json} {items others : List Json} (h : value.StatesItems items)
    (again : value.StatesItems others) : items = others := by
  cases h <;> cases again <;> rfl

end Json

/-- The fields of a node, whose children are still values. -/
structure DeclaredNode where
  type : String
  id : Option String
  key : Option String
  props : Entries Json
  items : List Json
  target : Option String

namespace DeclaredNode

/-- The members of an object are the fields of a node, and there are no others. -/
structure IsDeclaredBy (node : DeclaredNode) (members : Entries Json) : Prop where
  type : Entries.find? members "type" = some (.string node.type)
  id : (Json.member members "id").StatesText node.id
  key : (Json.member members "key").StatesText node.key
  props : (Json.member members "props").StatesMembers node.props
  items : (Json.member members "children").StatesItems node.items
  target : (Json.member members "target").StatesText node.target
  known : ∀ name ∈ Entries.keys members, name ∈ ["type", "id", "key", "props", "children", "target"]

/-- A reference names its target and has no children. -/
def ObeysRefs (node : DeclaredNode) : Prop :=
  node.type = "Ref" → (∃ target, node.target = some target ∧ target ≠ "") ∧ node.items = []

/-- The raw node with the fields and the given children. -/
def raw (node : DeclaredNode) (children : List RawNode) : RawNode :=
  ⟨some node.type, node.id, node.key, node.props, children, node.target⟩

end DeclaredNode

/-- The tree mirrors a value node for node, where `reads` tells which shapes a type and
properties declare. -/
inductive Tree.Mirrors {α : Type} (reads : String → Entries Json → Shape α → Prop) :
    Json → Tree α → Prop where
  | ref {members : Entries Json} {node : DeclaredNode} {target : String}
      (declared : node.IsDeclaredBy members) (type : node.type = "Ref")
      (named : node.target = some target) (written : target ≠ "") (leaf : node.items = []) :
      Mirrors reads (.object members) (.ref target)
  | node {members : Entries Json} {node : DeclaredNode} {shape : Shape α}
      {children : List (Tree α)} (declared : node.IsDeclaredBy members) (type : node.type ≠ "Ref")
      (shaped : reads node.type node.props shape)
      (below : List.Forall₂ (Mirrors reads) node.items children) :
      Mirrors reads (.object members) (.node node.key node.id shape children)

namespace Tree.Mirrors

variable {α : Type} {reads : String → Entries Json → Shape α → Prop} {value : Json}

theorem ref_iff {target : String} :
    Mirrors reads value (.ref target) ↔
      ∃ members, ∃ node : DeclaredNode, value = .object members ∧ node.IsDeclaredBy members ∧
        node.type = "Ref" ∧ node.target = some target ∧ target ≠ "" ∧ node.items = [] := by
  constructor
  · rintro ⟨declared, type, named, written, leaf⟩
    exact ⟨_, _, rfl, declared, type, named, written, leaf⟩
  · rintro ⟨members, node, rfl, declared, type, named, written, leaf⟩
    exact .ref declared type named written leaf

theorem node_iff {key id : Option String} {shape : Shape α} {children : List (Tree α)} :
    Mirrors reads value (.node key id shape children) ↔
      ∃ members, ∃ node : DeclaredNode, value = .object members ∧ node.IsDeclaredBy members ∧
        node.type ≠ "Ref" ∧ key = node.key ∧ id = node.id ∧ reads node.type node.props shape ∧
        List.Forall₂ (Mirrors reads) node.items children := by
  constructor
  · intro mirrors
    cases mirrors with
    | node declared type shaped below =>
        exact ⟨_, _, rfl, declared, type, rfl, rfl, shaped, below⟩
  · rintro ⟨members, node, rfl, declared, type, rfl, rfl, shaped, below⟩
    exact .node declared type shaped below

mutual

/-- What holds of every shape that is read holds of the shapes of a whole tree. -/
theorem imp {reads' : String → Entries Json → Shape α → Prop}
    (h : ∀ type props shape, reads type props shape → reads' type props shape) (value : Json) :
    (tree : Tree α) → Mirrors reads value tree → Mirrors reads' value tree
  | .ref target, mirrors => ref_iff.mpr (ref_iff.mp mirrors)
  | .node key id shape children, mirrors => by
      obtain ⟨members, node, same, declared, type, isKey, isId, shaped, below⟩ :=
        node_iff.mp mirrors
      exact node_iff.mpr ⟨members, node, same, declared, type, isKey, isId, h _ _ _ shaped,
        impAll h node.items children below⟩

theorem impAll {reads' : String → Entries Json → Shape α → Prop}
    (h : ∀ type props shape, reads type props shape → reads' type props shape) (items : List Json) :
    (trees : List (Tree α)) → List.Forall₂ (Mirrors reads) items trees →
      List.Forall₂ (Mirrors reads') items trees
  | [], mirrors => List.forall₂_nil_right_iff.mpr (List.forall₂_nil_right_iff.mp mirrors)
  | tree :: trees, mirrors => by
      obtain ⟨item, rest, first, others, rfl⟩ := List.forall₂_cons_right_iff.mp mirrors
      exact .cons (imp h item tree first) (impAll h rest trees others)

end

end Tree.Mirrors

namespace RawNode

variable {members : Entries Json} {name : String}

/-! ## Single fields -/

theorem typeFaults_eq_nil_iff :
    typeFaults members = [] ↔ ∃ type, Entries.find? members "type" = some (.string type) := by
  unfold typeFaults
  split
  · next absent => simp [absent]
  · next type found => simp [found]
  · next value notText found =>
      have other : ∀ type, value ≠ .string type := by
        rintro type rfl
        exact notText type rfl
      simp [found, other]

theorem textFaults_eq_nil_iff :
    textFaults members name = [] ↔ ∃ text, (Json.member members name).StatesText text := by
  unfold textFaults
  split
  · next void => exact ⟨fun _ => ⟨none, void ▸ .null⟩, fun _ => rfl⟩
  · next text isText => exact ⟨fun _ => ⟨some text, isText ▸ .string text⟩, fun _ => rfl⟩
  · next notNull notText =>
      refine ⟨fun empty => absurd empty (List.cons_ne_nil _ _), ?_⟩
      rintro ⟨text, states⟩
      generalize Json.member members name = value at *
      cases states with
      | null => exact absurd rfl notNull
      | string text => exact absurd rfl (notText text)

theorem textMember_of_states {text : Option String}
    (h : (Json.member members name).StatesText text) : textMember members name = text := by
  unfold textMember
  generalize Json.member members name = value at *
  cases h <;> rfl

theorem propsFaults_eq_nil_iff :
    propsFaults members = [] ↔ ∃ props, (Json.member members "props").StatesMembers props := by
  unfold propsFaults
  split
  · next void => exact ⟨fun _ => ⟨[], void ▸ .null⟩, fun _ => rfl⟩
  · next props isObject => exact ⟨fun _ => ⟨props, isObject ▸ .object props⟩, fun _ => rfl⟩
  · next notNull notObject =>
      refine ⟨fun empty => absurd empty (List.cons_ne_nil _ _), ?_⟩
      rintro ⟨props, states⟩
      generalize Json.member members "props" = value at *
      cases states with
      | null => exact absurd rfl notNull
      | object props => exact absurd rfl (notObject props)

theorem objectMember_of_states {props : Entries Json}
    (h : (Json.member members name).StatesMembers props) : objectMember members name = props := by
  unfold objectMember
  generalize Json.member members name = value at *
  cases h <;> rfl

theorem unknownFaults_eq_nil_iff :
    unknownFaults members = [] ↔ ∀ name ∈ Entries.keys members, name ∈ fieldNames := by
  simp [unknownFaults, List.filter_eq_nil_iff]

/-! ## Children -/

theorem checkChildren_eq (members : Entries Json) :
    checkChildren members = checkList (Json.member members "children") := by
  induction members with
  | nil => rfl
  | cons entry rest ih =>
      obtain ⟨key, value⟩ := entry
      rw [checkChildren, Json.member, Entries.find?_cons]
      split
      · rfl
      · exact ih

theorem checkList_of_states {value : Json} {items : List Json} (h : value.StatesItems items) :
    checkList value =
      ⟨(checkItems 0 items).value, (checkItems 0 items).faults.map (Fault.under "children")⟩ := by
  cases h with
  | null => simp [checkList, checkItems]
  | array items => rw [checkList]

theorem exists_states_of_checkList {value : Json} (h : (checkList value).faults = []) :
    ∃ items, value.StatesItems items := by
  cases value with
  | null => exact ⟨[], .null⟩
  | array items => exact ⟨items, .array items⟩
  | _ => simp [checkList] at h

theorem length_checkItems (index : Nat) (items : List Json) :
    (checkItems index items).value.length = items.length := by
  induction items generalizing index with
  | nil => simp [checkItems]
  | cons item rest ih => simp [checkItems, ih]

/-! ## Whole nodes -/

theorem refFaults_raw_eq_nil_iff {node : DeclaredNode} {children : List RawNode}
    (same : children = [] ↔ node.items = []) :
    (node.raw children).refFaults = [] ↔ node.ObeysRefs := by
  unfold refFaults DeclaredNode.ObeysRefs
  by_cases isRef : node.type = "Ref"
  · cases target : node.target with
    | none => simp [DeclaredNode.raw, isRef, target]
    | some text =>
        by_cases void : text = ""
        · simp [DeclaredNode.raw, isRef, target, void]
        · simp [DeclaredNode.raw, isRef, target, void, same]
  · simp [DeclaredNode.raw, isRef]

theorem ofMembers_of_declared {node : DeclaredNode} (declared : node.IsDeclaredBy members)
    (children : List RawNode) : ofMembers members children = node.raw children := by
  rw [ofMembers, textMember_of_states declared.id, textMember_of_states declared.key,
    textMember_of_states declared.target, objectMember_of_states declared.props, textMember,
    Json.member, declared.type]
  rfl

/-- The rule on references is looked at only where all fields are in order. -/
theorem faults_checkMembers_eq_nil_iff {children : Checked (List RawNode)} :
    (checkMembers members children).faults = [] ↔
      (typeFaults members = [] ∧ textFaults members "id" = [] ∧ textFaults members "key" = [] ∧
        propsFaults members = [] ∧ children.faults = [] ∧ textFaults members "target" = [] ∧
        unknownFaults members = []) ∧ (ofMembers members children.value).refFaults = [] := by
  rw [checkMembers]
  dsimp only
  split
  · next sound =>
      rw [List.isEmpty_iff] at sound
      simp only [List.append_eq_nil_iff, and_assoc] at sound
      exact ⟨fun refs => ⟨sound, refs⟩, And.right⟩
  · next faulty =>
      rw [List.isEmpty_iff] at faulty
      refine ⟨fun empty => absurd empty faulty, ?_⟩
      simp only [List.append_eq_nil_iff, and_assoc] at faulty
      exact fun sound => absurd sound.1 faulty

/-- An object is checked without a fault exactly if it declares a node that obeys the rule on
references, with items that are checked without a fault. -/
theorem check_object_eq_iff {raw : RawNode} :
    check (.object members) = ⟨raw, []⟩ ↔
      ∃ node : DeclaredNode, node.IsDeclaredBy members ∧ node.ObeysRefs ∧
        ∃ children, checkItems 0 node.items = ⟨children, []⟩ ∧ raw = node.raw children := by
  have same : ∀ {node : DeclaredNode} {children}, checkItems 0 node.items = ⟨children, []⟩ →
      (children = [] ↔ node.items = []) := by
    intro node children checked
    have length := length_checkItems 0 node.items
    rw [checked] at length
    rw [← List.length_eq_zero_iff, length, List.length_eq_zero_iff]
  rw [check, checkChildren_eq]
  constructor
  · intro h
    have faults := faults_checkMembers_eq_nil_iff.mp (congrArg Checked.faults h)
    obtain ⟨⟨type, id, key, props, children, target, known⟩, refs⟩ := faults
    obtain ⟨items, states⟩ := exists_states_of_checkList children
    obtain ⟨type, ofType⟩ := typeFaults_eq_nil_iff.mp type
    obtain ⟨id, ofId⟩ := textFaults_eq_nil_iff.mp id
    obtain ⟨key, ofKey⟩ := textFaults_eq_nil_iff.mp key
    obtain ⟨props, ofProps⟩ := propsFaults_eq_nil_iff.mp props
    obtain ⟨target, ofTarget⟩ := textFaults_eq_nil_iff.mp target
    have declared : DeclaredNode.IsDeclaredBy ⟨type, id, key, props, items, target⟩ members :=
      ⟨ofType, ofId, ofKey, ofProps, states, ofTarget, unknownFaults_eq_nil_iff.mp known⟩
    rw [checkList_of_states states] at children refs h
    have checked : checkItems 0 items = ⟨(checkItems 0 items).value, []⟩ := by
      rw [← List.map_eq_nil_iff.mp children]
    rw [ofMembers_of_declared declared, refFaults_raw_eq_nil_iff (same checked)] at refs
    refine ⟨_, declared, refs, _, checked, ?_⟩
    rw [← ofMembers_of_declared declared]
    exact (congrArg Checked.value h).symm
  · rintro ⟨node, declared, obeys, children, checked, rfl⟩
    have fields : typeFaults members = [] ∧ textFaults members "id" = [] ∧
        textFaults members "key" = [] ∧ propsFaults members = [] ∧ ([] : List Fault) = [] ∧
        textFaults members "target" = [] ∧ unknownFaults members = [] :=
      ⟨typeFaults_eq_nil_iff.mpr ⟨_, declared.type⟩, textFaults_eq_nil_iff.mpr ⟨_, declared.id⟩,
        textFaults_eq_nil_iff.mpr ⟨_, declared.key⟩, propsFaults_eq_nil_iff.mpr ⟨_, declared.props⟩,
        rfl, textFaults_eq_nil_iff.mpr ⟨_, declared.target⟩,
        unknownFaults_eq_nil_iff.mpr declared.known⟩
    have refs : (ofMembers members children).refFaults = [] := by
      rw [ofMembers_of_declared declared]
      exact (refFaults_raw_eq_nil_iff (same checked)).mpr obeys
    have sound : (checkMembers members ⟨children, []⟩).faults = [] :=
      faults_checkMembers_eq_nil_iff.mpr ⟨fields, refs⟩
    rw [checkList_of_states declared.items, checked]
    calc checkMembers members ⟨children, []⟩
        = ⟨ofMembers members children, (checkMembers members ⟨children, []⟩).faults⟩ := rfl
      _ = ⟨node.raw children, []⟩ := by rw [sound, ofMembers_of_declared declared]

theorem exists_object_of_check_eq {value : Json} {raw : RawNode} (h : check value = ⟨raw, []⟩) :
    ∃ members, value = .object members := by
  cases value with
  | object members => exact ⟨members, rfl⟩
  | _ =>
      have faults := congrArg Checked.faults h
      simp [check] at faults

theorem checkItems_cons_eq_iff {index : Nat} {item : Json} {rest : List Json}
    {children : List RawNode} :
    checkItems index (item :: rest) = ⟨children, []⟩ ↔
      ∃ first others, check item = ⟨first, []⟩ ∧ checkItems (index + 1) rest = ⟨others, []⟩ ∧
        children = first :: others := by
  rw [checkItems]
  constructor
  · intro h
    have faults := congrArg Checked.faults h
    simp only [List.append_eq_nil_iff, List.map_eq_nil_iff] at faults
    refine ⟨(check item).value, (checkItems (index + 1) rest).value, ?_, ?_,
      (congrArg Checked.value h).symm⟩
    · rw [← faults.1]
    · rw [← faults.2]
  · rintro ⟨first, others, checked, checkedAll, rfl⟩
    simp [checked, checkedAll]

theorem ofJson?_eq_ok_iff_check {value : Json} {raw : RawNode} :
    ofJson? value = .ok raw ↔ check value = ⟨raw, []⟩ := by
  rw [ofJson?]
  split
  · next sound =>
      rw [List.isEmpty_iff] at sound
      constructor
      · rintro ⟨⟩
        rw [← sound]
      · intro checked
        rw [checked]
  · next faulty =>
      refine ⟨fun refused => (by cases refused), ?_⟩
      intro checked
      rw [checked] at faulty
      exact absurd rfl faulty

end RawNode

namespace Tree

open RawNode

variable {path : TreePath} {node : DeclaredNode} {children : List RawNode}

theorem ofRaw_raw_of_ref {target : String}
    (type : node.type = "Ref") (named : node.target = some target) (written : target ≠ "") :
    ofRaw path (node.raw children) = .ok (.ref target) := by
  rw [DeclaredNode.raw, ofRaw.eq_def, type, named]
  simp [written]

theorem ofRaw_raw_eq_ok_iff {tree : Tree Binary64} (type : node.type ≠ "Ref") :
    ofRaw path (node.raw children) = .ok tree ↔
      ∃ shape trees, Shape.ofProps (some node.type) node.props = .ok shape ∧
        ofRawAll path 0 children = .ok trees ∧ tree = .node node.key node.id shape trees := by
  rw [DeclaredNode.raw, ofRaw.eq_def]
  dsimp only
  rw [if_neg (by simpa using type)]
  split
  · next cause refused => simp [refused]
  · next shape read =>
      split
      · next error refused => simp [refused]
      · next trees below => simp [read, below, eq_comm]

theorem ofRawAll_cons_eq_ok_iff {index : Nat} {raw : RawNode} {rest : List RawNode}
    {trees : List (Tree Binary64)} :
    ofRawAll path index (raw :: rest) = .ok trees ↔
      ∃ tree others, ofRaw (path.child index) raw = .ok tree ∧
        ofRawAll path (index + 1) rest = .ok others ∧ trees = tree :: others := by
  rw [ofRawAll]
  split
  · next error refused => simp [refused]
  · next tree read =>
      split
      · next error refused => simp [refused]
      · next others below => simp [read, below, eq_comm]

/-- The shape is what the properties of a type declare. -/
def Declares (type : String) (props : Entries Json) (shape : Shape Binary64) : Prop :=
  Shape.ofProps (some type) props = .ok shape

mutual

-- The recursion is on the tree. The items of a value are reached only through its members, so they
-- are no part of it that a recursion on values could follow.

/-- A value is read as a tree exactly if the tree mirrors it. -/
theorem reads_iff_mirrors (value : Json) (path : TreePath) : (tree : Tree Binary64) →
    ((∃ raw, check value = ⟨raw, []⟩ ∧ ofRaw path raw = .ok tree) ↔ Mirrors Declares value tree)
  | .ref target => by
      rw [Mirrors.ref_iff]
      constructor
      · rintro ⟨raw, checked, read⟩
        obtain ⟨members, rfl⟩ := exists_object_of_check_eq checked
        obtain ⟨node, declared, obeys, children, -, rfl⟩ := check_object_eq_iff.mp checked
        by_cases type : node.type = "Ref"
        · obtain ⟨⟨name, named, written⟩, leaf⟩ := obeys type
          rw [ofRaw_raw_of_ref type named written] at read
          cases read
          exact ⟨members, node, rfl, declared, type, named, written, leaf⟩
        · obtain ⟨_, _, _, _, same⟩ := (ofRaw_raw_eq_ok_iff type).mp read
          cases same
      · rintro ⟨members, node, rfl, declared, type, named, written, leaf⟩
        have checked : checkItems 0 node.items = ⟨[], []⟩ := by rw [leaf, checkItems]
        refine ⟨node.raw [], check_object_eq_iff.mpr ⟨node, declared, ?_, [], checked, rfl⟩, ?_⟩
        · exact fun _ => ⟨⟨target, named, written⟩, leaf⟩
        · exact ofRaw_raw_of_ref type named written
  | .node key label shape children => by
      rw [Mirrors.node_iff]
      constructor
      · rintro ⟨raw, checked, read⟩
        obtain ⟨members, rfl⟩ := exists_object_of_check_eq checked
        obtain ⟨node, declared, obeys, raws, items, rfl⟩ := check_object_eq_iff.mp checked
        by_cases type : node.type = "Ref"
        · obtain ⟨⟨name, named, written⟩, -⟩ := obeys type
          rw [ofRaw_raw_of_ref type named written] at read
          cases read
        · obtain ⟨_, _, shaped, below, same⟩ := (ofRaw_raw_eq_ok_iff type).mp read
          obtain ⟨isKey, isId, isShape, areChildren⟩ := Tree.node.inj same
          rw [← areChildren] at below
          rw [← isShape] at shaped
          exact ⟨members, node, rfl, declared, type, isKey, isId, shaped,
            (readsAll_iff_mirrors node.items path 0 0 children).mp ⟨raws, items, below⟩⟩
      · rintro ⟨members, node, rfl, declared, type, rfl, rfl, shaped, mirrors⟩
        obtain ⟨raws, items, below⟩ :=
          (readsAll_iff_mirrors node.items path 0 0 children).mpr mirrors
        refine ⟨node.raw raws, check_object_eq_iff.mpr ⟨node, declared, ?_, raws, items, rfl⟩, ?_⟩
        · exact fun isRef => absurd isRef type
        · exact (ofRaw_raw_eq_ok_iff type).mpr ⟨shape, children, shaped, below, rfl⟩

theorem readsAll_iff_mirrors (items : List Json) (path : TreePath) (first index : Nat) :
    (trees : List (Tree Binary64)) →
    ((∃ raws, checkItems first items = ⟨raws, []⟩ ∧ ofRawAll path index raws = .ok trees) ↔
      List.Forall₂ (Mirrors Declares) items trees)
  | [] => by
      rw [List.forall₂_nil_right_iff]
      constructor
      · rintro ⟨raws, checked, read⟩
        cases items with
        | nil => rfl
        | cons item rest =>
            obtain ⟨_, _, _, _, rfl⟩ := checkItems_cons_eq_iff.mp checked
            obtain ⟨_, _, _, _, same⟩ := ofRawAll_cons_eq_ok_iff.mp read
            cases same
      · rintro rfl
        exact ⟨[], by rw [checkItems], by rw [ofRawAll]⟩
  | tree :: trees => by
      cases items with
      | nil =>
          constructor
          · rintro ⟨raws, checked, read⟩
            rw [checkItems] at checked
            cases checked
            rw [ofRawAll] at read
            cases read
          · rintro ⟨⟩
      | cons item rest =>
          rw [List.forall₂_cons, ← reads_iff_mirrors item (path.child index) tree,
            ← readsAll_iff_mirrors rest path (first + 1) (index + 1) trees]
          constructor
          · rintro ⟨raws, checkedItems, readItems⟩
            obtain ⟨raw, others, checked, checkedAll, rfl⟩ :=
              checkItems_cons_eq_iff.mp checkedItems
            obtain ⟨_, _, read, readAll, same⟩ := ofRawAll_cons_eq_ok_iff.mp readItems
            cases same
            exact ⟨⟨raw, checked, read⟩, others, checkedAll, readAll⟩
          · rintro ⟨⟨raw, checked, read⟩, others, checkedAll, readAll⟩
            exact ⟨raw :: others,
              checkItems_cons_eq_iff.mpr ⟨raw, others, checked, checkedAll, rfl⟩,
              ofRawAll_cons_eq_ok_iff.mpr ⟨tree, trees, read, readAll, rfl⟩⟩

end

/-- A value is accepted as a tree exactly if the tree mirrors the value, which is read first if it
is a text. -/
theorem ofJson?_eq_ok_iff {value : Json} {tree : Tree Binary64} :
    ofJson? value = .ok tree ↔
      ∃ declared, ofJson?.declaredValue value = some declared ∧
        Mirrors Declares declared tree := by
  unfold ofJson?
  cases ofJson?.declaredValue value with
  | none => simp
  | some declared =>
      simp only [Option.some.injEq, exists_eq_left', ← reads_iff_mirrors declared .top tree,
        ← RawNode.ofJson?_eq_ok_iff_check]
      cases RawNode.ofJson? declared with
      | error faults => simp
      | ok raw => cases read : ofRaw .top raw <;> simp [read, Except.mapError]

end Tree

end SceneLayout
