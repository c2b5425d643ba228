import Mathlib.Data.List.Nodup
import Mathlib.Data.List.Perm.Subperm
import SceneLayout.Proofs.Failures
import SceneLayout.Proofs.NodeSchema
import SceneLayout.Sketch

/-!
# The names of a sketch

All calls of a sketch take their names from one counter, and write its number behind stems of
their own. No stem ends in a digit, so the number can be read off a generated name, and a name that
is generated later has a larger one. With given names that are no stem with a number, the names of
all nodes differ; a scene of these nodes is then never refused for a name that is taken.

Main statement: `names_of_calls_differ`.

## Implementation notes

A tree is put together from nodes that were sketched before, which is told by a relation between
its items and the list of the nodes that stand in it. That a node stands in it once is a property
of this list.
-/

namespace SceneLayout

namespace Sketch

/-! ## Stems and numbers -/

/-- The digits that a text ends in. -/
def trailingDigits (text : String) : List Char :=
  (text.toList.reverse.takeWhile Char.isDigit).reverse

section Numbers

variable {stem other text : String} {m n : Nat}

theorem trailingDigits_append_toString (stemless : trailingDigits stem = []) (n : Nat) :
    trailingDigits (stem ++ toString n) = Nat.toDigits 10 n := by
  have digits : ∀ c ∈ (Nat.toDigits 10 n).reverse, c.isDigit = true := fun c member =>
    Nat.isDigit_of_mem_toDigits (by decide) (by decide) (List.mem_reverse.mp member)
  rw [trailingDigits, List.reverse_eq_nil_iff] at stemless
  rw [trailingDigits, String.toList_append, Nat.toString_eq_repr, Nat.toList_repr,
    List.reverse_append, List.takeWhile_append_of_pos digits, stemless, List.append_nil,
    List.reverse_reverse]

theorem eq_of_append_toString (stemless : trailingDigits stem = [])
    (otherless : trailingDigits other = []) (same : stem ++ toString m = other ++ toString n) :
    m = n := by
  have digits := congrArg trailingDigits same
  rw [trailingDigits_append_toString stemless, trailingDigits_append_toString otherless] at digits
  exact NodeName.repr_injective (by
    rw [Nat.repr_eq_ofList_toDigits, digits, ← Nat.repr_eq_ofList_toDigits])

theorem ne_append_toString (textless : trailingDigits text = [])
    (stemless : trailingDigits stem = []) (n : Nat) : text ≠ stem ++ toString n := by
  rintro rfl
  rw [trailingDigits_append_toString stemless] at textless
  exact Nat.toDigits_ne_nil textless

end Numbers

/-! ## Calls -/

/-- A call that sketches a node. -/
inductive Call where
  | circle (props : Entries Json)
  | rect (props : Entries Json)
  | text (props : Entries Json) (content : Json)
  | stackH (props : Entries Json) (children : List Json)
  | stackV (props : Entries Json) (children : List Json)
  | align (props : Entries Json) (children : List Json)
  | distribute (props : Entries Json) (children : List Json)
  | background (props : Entries Json) (child : Json)
  | arrow (source target : Json) (props : Entries Json)

namespace Call

/-- The properties that are given with a call. -/
def props : Call → Entries Json
  | circle props => props
  | rect props => props
  | text props _ => props
  | stackH props _ => props
  | stackV props _ => props
  | align props _ => props
  | distribute props _ => props
  | background props _ => props
  | arrow _ _ props => props

/-- The stem of the names that are generated for a call. -/
def stem : Call → String
  | circle _ => "circle"
  | rect _ => "rect"
  | text .. => "text"
  | stackH .. => "stackH"
  | stackV .. => "stackV"
  | align .. => "align"
  | distribute .. => "dist"
  | background .. => "bg"
  | arrow .. => "arrow"

/-- The node that a call gives, and the counter after it. -/
def run (counter : Counter) : Call → Json × Counter
  | circle props => Sketch.circle props counter
  | rect props => Sketch.rect props counter
  | text props content => Sketch.text props content counter
  | stackH props children => Sketch.stackH props children counter
  | stackV props children => Sketch.stackV props children counter
  | align props children => Sketch.align props children counter
  | distribute props children => Sketch.distribute props children counter
  | background props child => Sketch.background props child counter
  | arrow source target props => Sketch.arrow source target props counter

/-- The nodes that calls give one after the other. -/
def runAll (counter : Counter) : List Call → List Json
  | [] => []
  | call :: rest => (call.run counter).1 :: runAll (call.run counter).2 rest

/-- The name that is given with a call. -/
def givenName? (call : Call) : Option String :=
  match Json.member call.props "name" with
  | .string name => some name
  | _ => none

/-- No name is given with the call, or a text that is not empty. -/
def NameWritten (call : Call) : Prop :=
  Json.member call.props "name" = .null ∨
    ∃ name, name ≠ "" ∧ Json.member call.props "name" = .string name

/-- The names that are given with calls are texts that are not empty; they differ from each other,
from the name of the scene and from every stem with a number. -/
structure WellNamed (calls : List Call) : Prop where
  written : ∀ call ∈ calls, call.NameWritten
  distinct : (calls.filterMap givenName?).Nodup
  notScene : "scene" ∉ calls.filterMap givenName?
  notNumbered : ∀ (call : Call) (number : Nat),
    call.stem ++ toString number ∉ calls.filterMap givenName?

/-- The name of the node that a call gives, and the counter after it. -/
def name (counter : Counter) (call : Call) : String × Counter :=
  match call.givenName? with
  | some name => (name, counter)
  | none => freshName call.stem counter

/-- The names of the nodes that calls give one after the other. -/
def names (counter : Counter) : List Call → List String
  | [] => []
  | call :: rest => (call.name counter).1 :: names (call.name counter).2 rest

theorem trailingDigits_stem (call : Call) : trailingDigits call.stem = [] := by
  cases call <;> simp [stem, trailingDigits]

theorem name_of_given {call : Call} {counter : Counter} {given : String}
    (found : call.givenName? = some given) : call.name counter = (given, counter) := by
  rw [name, found]

theorem name_of_none {call : Call} {counter : Counter} (none : call.givenName? = none) :
    call.name counter = (call.stem ++ toString (counter + 1), counter + 1) := by
  rw [name, none]
  rfl

section Names

variable {calls : List Call} {call : Call} {counter : Counter} {name : String}

/-- A name is given, or its number is above the counter. -/
theorem mem_names (member : name ∈ names counter calls) :
    name ∈ calls.filterMap givenName? ∨
      ∃ (call : Call) (number : Nat), counter < number ∧ name = call.stem ++ toString number := by
  induction calls generalizing counter with
  | nil => cases member
  | cons call rest ih =>
      rw [names, List.mem_cons] at member
      cases found : call.givenName? with
      | some given =>
          rw [name_of_given found] at member
          rw [List.filterMap_cons_some found, List.mem_cons]
          rcases member with here | later
          · exact .inl (.inl here)
          · exact (ih later).imp_left .inr
      | none =>
          rw [name_of_none found] at member
          rw [List.filterMap_cons_none found]
          rcases member with here | later
          · exact .inr ⟨call, counter + 1, Nat.lt_succ_self counter, here⟩
          · refine (ih later).imp_right ?_
            rintro ⟨other, number, above, same⟩
            exact ⟨other, number, Nat.lt_of_succ_lt above, same⟩

theorem WellNamed.tail (wellNamed : WellNamed (call :: calls)) : WellNamed calls := by
  obtain ⟨written, distinct, notScene, notNumbered⟩ := wellNamed
  have listed : ∀ {name}, name ∈ calls.filterMap givenName? →
      name ∈ (call :: calls).filterMap givenName? := fun member =>
    ((List.sublist_cons_self call calls).filterMap _).subset member
  exact ⟨fun other member => written other (List.mem_cons_of_mem _ member),
    distinct.sublist ((List.sublist_cons_self call calls).filterMap _),
    fun member => notScene (listed member),
    fun other number member => notNumbered other number (listed member)⟩

theorem nodup_names (wellNamed : WellNamed calls) : (names counter calls).Nodup := by
  induction calls generalizing counter with
  | nil => exact List.nodup_nil
  | cons call rest ih =>
      rw [names, List.nodup_cons]
      -- A later name is given, and so differs by assumption, or it has a larger number.
      refine ⟨fun member => ?_, ih wellNamed.tail⟩
      cases found : call.givenName? with
      | some given =>
          have distinct := wellNamed.distinct
          rw [List.filterMap_cons_some found, List.nodup_cons] at distinct
          rw [name_of_given found] at member
          rcases mem_names member with again | ⟨other, number, -, numbered⟩
          · exact distinct.1 again
          · apply wellNamed.notNumbered other number
            rw [List.filterMap_cons_some found, ← numbered]
            exact List.mem_cons_self ..
      | none =>
          rw [name_of_none found] at member
          rcases mem_names member with again | ⟨other, number, above, same⟩
          · exact wellNamed.tail.notNumbered call (counter + 1) again
          · have number_eq := eq_of_append_toString (trailingDigits_stem call)
              (trailingDigits_stem other) same
            exact Nat.ne_of_lt above number_eq

theorem scene_not_mem_names (wellNamed : WellNamed calls) : "scene" ∉ names counter calls := by
  intro member
  rcases mem_names member with given | ⟨call, number, -, same⟩
  · exact wellNamed.notScene given
  · exact ne_append_toString (by simp [trailingDigits]) (trailingDigits_stem call) number same

end Names

end Call

/-! ## Sketched nodes -/

/-- The members are those of a node with a name as its id, without a key and with the given
children. -/
structure IsNode (name : String) (children : List Json) (members : Entries Json) : Prop where
  type : ∃ type, Entries.find? members "type" = some (.string type) ∧ type ≠ "Ref"
  id : Json.member members "id" = .string name
  written : name ≠ ""
  key : Json.member members "key" = .null
  children : (Json.member members "children").StatesItems children

section Nodes

variable {name : String} (written : name ≠ "")
include written

theorem isNode_leaf {type : String} (known : type ≠ "Ref") (props : Entries Json) :
    ∃ members, leaf type (.string name) props = .object members ∧ IsNode name [] members :=
  ⟨_, rfl, ⟨type, rfl, known⟩, rfl, written, rfl, .null⟩

theorem isNode_branch {type : String} (known : type ≠ "Ref") (props : Entries Json)
    (children : List Json) :
    ∃ members, branch type (.string name) props children = .object members ∧
      IsNode name children members :=
  ⟨_, rfl, ⟨type, rfl, known⟩, rfl, written, rfl, .array children⟩

end Nodes

theorem isNode_scene (children : List Json) :
    ∃ members, (scene children).1 = .object members ∧ IsNode "scene" children members :=
  ⟨_, rfl, ⟨"Group", rfl, by decide⟩, rfl, by decide, rfl, .array children⟩

namespace Call

variable {call : Call}

theorem NameWritten.named_eq (written : call.NameWritten) (counter : Counter) :
    named call.stem call.props counter =
      (.string (call.name counter).1, Entries.erase "name" call.props, (call.name counter).2) := by
  rcases written with none | ⟨given, -, isGiven⟩
  · rw [named, none, name_of_none (by rw [givenName?, none])]
    rfl
  · rw [named, isGiven, name_of_given (by rw [givenName?, isGiven])]

theorem NameWritten.name_ne_empty (written : call.NameWritten) (counter : Counter) :
    (call.name counter).1 ≠ "" := by
  rcases written with none | ⟨given, notEmpty, isGiven⟩
  · rw [name_of_none (by rw [givenName?, none])]
    exact (ne_append_toString (by simp [trailingDigits]) (trailingDigits_stem call) _).symm
  · rwa [name_of_given (by rw [givenName?, isGiven])]

/-- A call gives a node of a type of its own, with or without children. -/
theorem run_cases (call : Call) (counter : Counter) :
    (∃ type, type ≠ "Ref" ∧ ∃ props,
      (call.run counter).1 = leaf type (named call.stem call.props counter).1 props ∨
      ∃ children,
        (call.run counter).1 = branch type (named call.stem call.props counter).1 props children) ∧
    (call.run counter).2 = (named call.stem call.props counter).2.2 := by
  cases call with
  | circle => exact ⟨⟨"Circle", by decide, _, .inl rfl⟩, rfl⟩
  | rect => exact ⟨⟨"Rect", by decide, _, .inl rfl⟩, rfl⟩
  | text => exact ⟨⟨"Text", by decide, _, .inl rfl⟩, rfl⟩
  | stackH => exact ⟨⟨"StackH", by decide, _, .inr ⟨_, rfl⟩⟩, rfl⟩
  | stackV => exact ⟨⟨"StackV", by decide, _, .inr ⟨_, rfl⟩⟩, rfl⟩
  | align => exact ⟨⟨"Align", by decide, _, .inr ⟨_, rfl⟩⟩, rfl⟩
  | distribute => exact ⟨⟨"Distribute", by decide, _, .inr ⟨_, rfl⟩⟩, rfl⟩
  | background => exact ⟨⟨"Background", by decide, _, .inr ⟨_, rfl⟩⟩, rfl⟩
  | arrow => exact ⟨⟨"Arrow", by decide, _, .inr ⟨_, rfl⟩⟩, rfl⟩

/-- A call gives a node with its name. -/
theorem NameWritten.exists_isNode_run (written : call.NameWritten) (counter : Counter) :
    ∃ children members, (call.run counter).1 = .object members ∧
      IsNode (call.name counter).1 children members := by
  have notEmpty := written.name_ne_empty counter
  obtain ⟨⟨type, known, props, isLeaf | ⟨children, isBranch⟩⟩, -⟩ := run_cases call counter
  · rw [isLeaf, written.named_eq]
    exact ⟨[], isNode_leaf notEmpty known _⟩
  · rw [isBranch, written.named_eq]
    exact ⟨children, isNode_branch notEmpty known _ _⟩

theorem NameWritten.run_counter (written : call.NameWritten) (counter : Counter) :
    (call.run counter).2 = (call.name counter).2 := by
  rw [(run_cases call counter).2, written.named_eq]

end Call

/-- The id of a declared node. -/
def idOf : Json → Json
  | .object members => Json.member members "id"
  | _ => .null

/-- The children of a declared node. -/
def childrenOf : Json → List Json
  | .object members =>
      match Json.member members "children" with
      | .array items => items
      | _ => []
  | _ => []

/-- The value is a node with a name as its id and without a key. -/
def Named (node : Json) : Prop :=
  ∃ name children members, node = .object members ∧ IsNode name children members

theorem IsNode.idOf_eq {name : String} {children : List Json} {members : Entries Json}
    (isNode : IsNode name children members) : idOf (.object members) = .string name :=
  isNode.id

theorem IsNode.childrenOf_eq {name : String} {children : List Json} {members : Entries Json}
    (isNode : IsNode name children members) : childrenOf (.object members) = children := by
  have states := isNode.children
  rw [childrenOf]
  cases states' : Json.member members "children" <;> rw [states'] at states <;> cases states <;> rfl

namespace Call

variable {calls : List Call} {counter : Counter}

theorem map_idOf_runAll (written : ∀ call ∈ calls, call.NameWritten) :
    (runAll counter calls).map idOf = (names counter calls).map .string := by
  induction calls generalizing counter with
  | nil => rfl
  | cons call rest ih =>
      rw [List.forall_mem_cons] at written
      obtain ⟨children, members, same, isNode⟩ := written.1.exists_isNode_run counter
      rw [runAll, names, List.map_cons, List.map_cons, written.1.run_counter, ih written.2, same,
        isNode.idOf_eq]

theorem named_of_mem_runAll (written : ∀ call ∈ calls, call.NameWritten) :
    ∀ node ∈ runAll counter calls, Named node := by
  induction calls generalizing counter with
  | nil => exact List.forall_mem_nil _
  | cons call rest ih =>
      rw [List.forall_mem_cons] at written
      obtain ⟨children, members, same, isNode⟩ := written.1.exists_isNode_run counter
      rw [runAll, List.forall_mem_cons]
      exact ⟨⟨_, children, members, same, isNode⟩, ih written.2⟩

end Call

/-! ## Trees of sketched nodes -/

/-- Items are put together from references and from nodes; the second list has all nodes that stand
in them, each with those that stand in its children. -/
inductive PutTogether : List Json → List Json → Prop where
  | nil : PutTogether [] []
  | ref (target : Json) {items used : List Json} (rest : PutTogether items used) :
      PutTogether (ref target :: items) used
  | node {node : Json} {items inside used : List Json}
      (below : PutTogether (childrenOf node) inside) (rest : PutTogether items used) :
      PutTogether (node :: items) (node :: (inside ++ used))

end Sketch

/-- All nodes among the visits have explicit names, which are the given ones. -/
inductive Visit.Named : List Visit → List String → Prop where
  | nil : Named [] []
  | ref (target : String) {visits : List Visit} {names : List String} (rest : Named visits names) :
      Named (.ref target :: visits) names
  | node {key id type : Option String} {path : TreePath} {field : NameField} {name : String}
      {visits : List Visit} {names : List String}
      (found : NodeName.explicit? key id = some (field, name)) (rest : Named visits names) :
      Named (.node key id type path :: visits) (name :: names)

namespace Visit.Named

variable {visits others : List Visit} {names further known : List String}

theorem append (named : Named visits names) (later : Named others further) :
    Named (visits ++ others) (names ++ further) := by
  induction named with
  | nil => exact later
  | ref target _ ih => exact .ref target ih
  | node found _ ih => exact .node found ih

/-- Visits with different names are not refused for a name. -/
theorem checkAll_ne_duplicateName (named : Named visits names) (distinct : (known ++ names).Nodup)
    (field : NameField) (name : String) :
    checkAll known visits ≠ .error (.duplicateName field name) := by
  induction named generalizing known with
  | nil => rintro ⟨⟩
  | ref target _ ih =>
      rw [checkAll]
      cases checked : check known (.ref target) with
      | error error =>
          rintro ⟨⟩
          cases check_eq_error_iff.mp checked
      | ok added =>
          simp only [check_eq_ok checked, assigned, List.append_nil]
          exact ih distinct
  | @node key id type path field' name' visits names found _ ih =>
      have fresh : name' ∉ known := fun member =>
        List.disjoint_of_nodup_append distinct member (List.mem_cons_self ..)
      rw [checkAll]
      cases checked : check known (.node key id type path) with
      | error error =>
          obtain ⟨_, other, foundToo, taken, -⟩ :=
            offends_node_iff.mp (check_eq_error_iff.mp checked)
          rw [found] at foundToo
          cases foundToo
          exact absurd taken fresh
      | ok added =>
          simp only [check_eq_ok checked, assigned, found]
          rw [List.append_cons] at distinct
          exact ih distinct

end Visit.Named

/-- A tree is not refused for a name if its nodes have different explicit names. -/
theorem Tree.compile_ne_duplicateName {α : Type} [Scalar α] {tree : Tree α} {names : List String}
    (named : Visit.Named (tree.visits .top) names) (distinct : names.Nodup) (field : NameField)
    (name : String) : tree.compile ≠ .error (.duplicateName field name) := by
  intro refused
  have checked := map_ids_compile tree
  rw [refused] at checked
  have unknown : ([] ++ names).Nodup := distinct
  exact named.checkAll_ne_duplicateName unknown field name checked.symm

namespace Sketch

/-- A node is read as a node with its name as the id. -/
theorem IsNode.exists_of_mirrors {name : String} {children : List Json} {members : Entries Json}
    {tree : Tree Binary64} (isNode : IsNode name children members)
    (mirrors : Tree.Mirrors Tree.Declares (.object members) tree) :
    ∃ shape trees, tree = .node none (some name) shape trees ∧
      List.Forall₂ (Tree.Mirrors Tree.Declares) children trees := by
  obtain ⟨⟨type, typed, known⟩, isId, -, isKey, isChildren⟩ := isNode
  cases tree with
  | ref target =>
      obtain ⟨_, node, ⟨⟩, declared, isRef, -⟩ := Tree.Mirrors.ref_iff.mp mirrors
      rw [declared.type, isRef] at typed
      cases typed
      exact absurd rfl known
  | node key id shape trees =>
      obtain ⟨_, node, ⟨⟩, declared, -, rfl, rfl, -, below⟩ := Tree.Mirrors.node_iff.mp mirrors
      have key := declared.key
      have id := declared.id
      rw [isKey] at key
      rw [isId] at id
      rw [key.unique .null, id.unique (.string name), isChildren.unique declared.items]
      exact ⟨shape, trees, rfl, below⟩

theorem exists_of_mirrors_ref {target : Json} {tree : Tree Binary64}
    (mirrors : Tree.Mirrors Tree.Declares (ref target) tree) : ∃ name, tree = .ref name := by
  cases tree with
  | ref name => exact ⟨name, rfl⟩
  | node key id shape trees =>
      obtain ⟨_, node, ⟨⟩, declared, known, -⟩ := Tree.Mirrors.node_iff.mp mirrors
      have isRef : some (Json.string "Ref") = some (.string node.type) := declared.type
      exact absurd (Json.string.inj (Option.some.inj isRef)).symm known

theorem explicit?_of_id {id : String} (written : id ≠ "") :
    NodeName.explicit? none (some id) = some (.id, id) :=
  Visit.explicit?_eq_some_iff.mpr ⟨written, .inr ⟨rfl, .inl rfl, rfl⟩⟩

/-- In what is put together from nodes, the nodes are visited with their ids as names. -/
theorem PutTogether.exists_named {items used : List Json} (together : PutTogether items used)
    (nodes : ∀ node ∈ used, Named node) :
    ∃ names : List String, used.map idOf = names.map .string ∧
      ∀ (trees : List (Tree Binary64)), List.Forall₂ (Tree.Mirrors Tree.Declares) items trees →
        ∀ path index, Visit.Named (Tree.visitsAll path index trees) names := by
  induction together with
  | nil =>
      refine ⟨[], rfl, fun trees mirrors path index => ?_⟩
      cases mirrors
      rw [Tree.visitsAll]
      exact .nil
  | ref target _ ih =>
      obtain ⟨names, ids, visited⟩ := ih nodes
      refine ⟨names, ids, fun trees mirrors path index => ?_⟩
      obtain ⟨tree, rest, first, others, rfl⟩ := List.forall₂_cons_left_iff.mp mirrors
      obtain ⟨name, rfl⟩ := exists_of_mirrors_ref first
      rw [Tree.visitsAll, Tree.visits]
      exact .ref name (visited rest others path (index + 1))
  | @node node items inside used _ _ insideIh restIh =>
      rw [List.forall_mem_cons, List.forall_mem_append] at nodes
      obtain ⟨⟨id, children, members, rfl, isNode⟩, insideNodes, restNodes⟩ := nodes
      obtain ⟨below, belowIds, belowVisited⟩ := insideIh insideNodes
      obtain ⟨later, laterIds, laterVisited⟩ := restIh restNodes
      refine ⟨id :: (below ++ later), ?_, fun trees mirrors path index => ?_⟩
      · rw [List.map_cons, List.map_append, belowIds, laterIds, isNode.idOf_eq, List.map_cons,
          List.map_append]
      · obtain ⟨tree, rest, first, others, rfl⟩ := List.forall₂_cons_left_iff.mp mirrors
        obtain ⟨shape, trees, rfl, mirrored⟩ := isNode.exists_of_mirrors first
        rw [isNode.childrenOf_eq] at belowVisited
        rw [Tree.visitsAll, Tree.visits]
        exact .node (explicit?_of_id isNode.written)
          ((belowVisited trees mirrored _ _).append (laterVisited rest others path (index + 1)))

/-- A scene that is put together from nodes with different names is not refused for a name that is
taken. -/
theorem PutTogether.scene_ne_duplicateName {children used : List Json}
    (together : PutTogether children used) (nodes : ∀ node ∈ used, Named node)
    (distinct : (used.map idOf).Nodup) (others : .string "scene" ∉ used.map idOf)
    (field : NameField) (name : String) :
    Scene.ofJson (scene children).1 ≠ .error (.compile (.duplicateName field name)) := by
  obtain ⟨names, ids, visited⟩ := together.exists_named nodes
  rw [ids] at distinct others
  have all : ("scene" :: names).Nodup :=
    List.nodup_cons.mpr ⟨fun member => others (List.mem_map_of_mem member), distinct.of_map⟩
  rw [Scene.ofJson]
  cases read : Tree.ofJson? (scene children).1 with
  | error error => rintro ⟨⟩
  | ok tree =>
      obtain ⟨declared, isDeclared, mirrors⟩ := Tree.ofJson?_eq_ok_iff.mp read
      obtain ⟨members, same, isNode⟩ := isNode_scene children
      rw [same] at isDeclared
      cases isDeclared
      obtain ⟨shape, trees, rfl, below⟩ := isNode.exists_of_mirrors mirrors
      have named : Visit.Named (Tree.visits .top (.node none (some "scene") shape trees))
          ("scene" :: names) := by
        rw [Tree.visits]
        exact .node (explicit?_of_id (by decide)) (visited trees below _ _)
      rw [← Tree.visits_map Binary64.toFloat] at named
      dsimp only
      cases compiled : Tree.scene (.node none (some "scene") shape trees) with
      | error error =>
          rintro ⟨⟩
          exact Tree.compile_ne_duplicateName named all field name compiled
      | ok found => rintro ⟨⟩

/-- The nodes of calls have different ids, whatever the counter is before them; and a scene in which
each of them stands at most once is not refused for a name that is taken. -/
theorem names_of_calls_differ {calls : List Call} (wellNamed : Call.WellNamed calls)
    (counter : Counter) :
    ((Call.runAll counter calls).map idOf).Nodup ∧
      ∀ children used, PutTogether children used → used.Subperm (Call.runAll counter calls) →
        ∀ field name,
          Scene.ofJson (scene children).1 ≠ .error (.compile (.duplicateName field name)) := by
  have ids : (Call.runAll counter calls).map idOf = (Call.names counter calls).map .string :=
    Call.map_idOf_runAll wellNamed.written
  have distinct : ((Call.runAll counter calls).map idOf).Nodup := by
    rw [ids]
    exact (Call.nodup_names wellNamed).map fun _ _ => Json.string.inj
  refine ⟨distinct, fun children used together once => ?_⟩
  obtain ⟨listed, perm, sublist⟩ := once
  apply together.scene_ne_duplicateName
  · intro node member
    exact Call.named_of_mem_runAll wellNamed.written node (sublist.subset (perm.mem_iff.mpr member))
  · exact (perm.map idOf).nodup_iff.mp (distinct.sublist (sublist.map idOf))
  · intro member
    have among := (sublist.map idOf).subset ((perm.map idOf).mem_iff.mpr member)
    rw [ids] at among
    obtain ⟨name, isName, same⟩ := List.mem_map.mp among
    cases same
    exact Call.scene_not_mem_names wellNamed isName

/-- A circle without a name, one with a name, and a row of the first and of a reference. -/
def dottedRow : List Call :=
  [.circle [], .circle [("name", .string "dot")],
    .stackH [("name", .null)] [(circle [] 0).1, ref (.string "dot")]]

theorem names_of_dottedRow_differ :
    Call.WellNamed dottedRow ∧ ((Call.runAll 0 dottedRow).map idOf).Nodup ∧
      ∀ dot row, (Call.runAll 0 dottedRow).drop 1 = [dot, row] → ∀ field name,
        Scene.ofJson (scene [dot, row]).1 ≠ .error (.compile (.duplicateName field name)) := by
  have given : dottedRow.filterMap Call.givenName? = ["dot"] := rfl
  have wellNamed : Call.WellNamed dottedRow := by
    constructor
    case written =>
      rw [dottedRow, List.forall_mem_cons, List.forall_mem_cons, List.forall_mem_singleton]
      exact ⟨.inl rfl, .inr ⟨"dot", by decide, rfl⟩, .inl rfl⟩
    case distinct =>
      rw [given]
      exact List.nodup_singleton _
    case notScene =>
      rw [given]
      decide
    case notNumbered =>
      intro call number
      rw [given, List.mem_singleton]
      exact (ne_append_toString (by simp [trailingDigits]) call.trailingDigits_stem number).symm
  obtain ⟨distinct, accepted⟩ := names_of_calls_differ wellNamed 0
  refine ⟨wellNamed, distinct, ?_⟩
  rintro dot row ⟨⟩
  exact accepted _ _ (.node .nil (.node (.node .nil (.ref (.string "dot") .nil)) .nil))
    (List.perm_append_singleton (circle [] 0).1 [_, _]).subperm

end Sketch

end SceneLayout
