import SceneLayout.Proofs.Compilation

/-!
# Which trees have a scene

Compilation visits the nodes of a tree in preorder and knows the names that the nodes
before them have got. A reference is at fault if its target is none of these, a node if
its explicit name is one of them; a generated name never is. A tree has a scene exactly
if no visit is at fault, and otherwise the first visit that is decides why the tree is
refused.

Main statement: `compile_decided_by_visits`.

## Implementation notes

The visits of a tree are a flat list, in which a fault has a place and the visits before
it are a prefix. The names that are known at a visit come from that prefix alone.
-/

namespace SceneLayout

universe u

variable {α : Type u}

/-- What compilation looks at when it comes to a node. -/
inductive Visit where
  | ref (target : String)
  | node (key id type : Option String) (path : TreePath)

namespace Tree

mutual

/-- The visits of a tree at a place, each node before its children. -/
def visits (path : TreePath) : Tree α → List Visit
  | ref target => [.ref target]
  | node key id shape children =>
      .node key id shape.typeName path :: visitsAll path 0 children

/-- The visits of the children at a place, of which the first has the given index. -/
def visitsAll (path : TreePath) (index : Nat) : List (Tree α) → List Visit
  | [] => []
  | tree :: rest => tree.visits (path.child index) ++ visitsAll path (index + 1) rest

end

end Tree

namespace Visit

/-- The visit is at fault for a reason, where the given names are known. A key that is not empty
is the name of its node; an id counts only if there is no such key. -/
inductive Offends (known : List String) : Visit → CompileError → Prop where
  | target {target : String} (unknown : target ∉ known) :
      Offends known (.ref target) (.unknownTarget target)
  | key {key : String} {id type : Option String} {path : TreePath} (written : key ≠ "")
      (taken : key ∈ known) : Offends known (.node (some key) id type path) (.duplicateName .key key)
  | id {key : Option String} {id : String} {type : Option String} {path : TreePath}
      (noKey : key = none ∨ key = some "") (written : id ≠ "") (taken : id ∈ known) :
      Offends known (.node key (some id) type path) (.duplicateName .id id)

/-- The names that a visit adds to the known ones: none for a reference, the explicit one for a
node that has it, and else a generated one. -/
def assigned (known : List String) : Visit → List String
  | ref _ => []
  | node key id type path =>
      match NodeName.explicit? key id with
      | some (_, name) => [name]
      | none => [NodeName.firstFree known (NodeName.base type path)]

/-- The names that are known after visits. -/
def knownAfter (known : List String) (visits : List Visit) : List String :=
  visits.foldl (fun known visit => known ++ visit.assigned known) known

/-- The visit at an index is at fault, where the given names are known before the first one. -/
def OffendsAt (known : List String) (visits : List Visit) (i : Nat) (error : CompileError) : Prop :=
  ∃ visit, visits[i]? = some visit ∧ visit.Offends (knownAfter known (visits.take i)) error

/-- The visit is looked at: it is refused, or it adds its names. -/
def check (known : List String) : Visit → Except CompileError (List String)
  | ref target => if known.contains target then .ok [] else .error (.unknownTarget target)
  | node key id type path => (NodeName.choose known key id type path).map fun name => [name]

/-- Visits are looked at one after the other, up to the first refused one. -/
def checkAll (known : List String) : List Visit → Except CompileError (List String)
  | [] => .ok known
  | visit :: rest =>
      match visit.check known with
      | .error error => .error error
      | .ok names => checkAll (known ++ names) rest

theorem nonEmpty_eq_some_iff {name : Option String} {text : String} :
    NodeName.explicit?.nonEmpty name = some text ↔ name = some text ∧ text ≠ "" := by
  rw [NodeName.explicit?.nonEmpty, Option.filter_eq_some_iff]
  simp

theorem nonEmpty_eq_none_iff {name : Option String} :
    NodeName.explicit?.nonEmpty name = none ↔ name = none ∨ name = some "" := by
  rw [NodeName.explicit?.nonEmpty, Option.filter_eq_none_iff]
  cases name <;> simp

/-- The explicit name is the key, or without one the id, as long as it is not empty. -/
theorem explicit?_eq_some_iff {key id : Option String} {field : NameField} {name : String} :
    NodeName.explicit? key id = some (field, name) ↔
      name ≠ "" ∧ (field = .key ∧ key = some name ∨
        field = .id ∧ (key = none ∨ key = some "") ∧ id = some name) := by
  rw [NodeName.explicit?]
  cases found : NodeName.explicit?.nonEmpty key with
  | some text =>
      obtain ⟨rfl, written⟩ := nonEmpty_eq_some_iff.mp found
      constructor
      · rintro ⟨⟩
        exact ⟨written, .inl ⟨rfl, rfl⟩⟩
      · rintro ⟨_, ⟨rfl, same⟩ | ⟨_, none | empty, _⟩⟩
        · cases same
          rfl
        · cases none
        · cases empty
          exact absurd rfl written
  | none =>
      have noKey := nonEmpty_eq_none_iff.mp found
      rw [Option.map_eq_some_iff]
      constructor
      · rintro ⟨text, isId, ⟨⟩⟩
        obtain ⟨rfl, written⟩ := nonEmpty_eq_some_iff.mp isId
        exact ⟨written, .inr ⟨rfl, noKey, rfl⟩⟩
      · rintro ⟨written, ⟨rfl, rfl⟩ | ⟨rfl, _, rfl⟩⟩
        · rcases noKey with none | empty
          · cases none
          · cases empty
            exact absurd rfl written
        · exact ⟨name, nonEmpty_eq_some_iff.mpr ⟨rfl, written⟩, rfl⟩

/-- A node is at fault for its explicit name only. -/
theorem offends_node_iff {known : List String} {key id type : Option String} {path : TreePath}
    {error : CompileError} :
    Offends known (.node key id type path) error ↔
      ∃ field name, NodeName.explicit? key id = some (field, name) ∧ name ∈ known ∧
        error = .duplicateName field name := by
  constructor
  · intro fault
    cases fault with
    | key written taken =>
        exact ⟨.key, _, explicit?_eq_some_iff.mpr ⟨written, .inl ⟨rfl, rfl⟩⟩, taken, rfl⟩
    | id noKey written taken =>
        exact ⟨.id, _, explicit?_eq_some_iff.mpr ⟨written, .inr ⟨rfl, noKey, rfl⟩⟩, taken, rfl⟩
  · rintro ⟨field, name, found, taken, rfl⟩
    obtain ⟨written, ⟨rfl, rfl⟩ | ⟨rfl, noKey, rfl⟩⟩ := explicit?_eq_some_iff.mp found
    · exact .key written taken
    · exact .id noKey written taken

/-- A visit is refused exactly for its fault. -/
theorem check_eq_error_iff {known : List String} {visit : Visit} {error : CompileError} :
    visit.check known = .error error ↔ visit.Offends known error := by
  cases visit with
  | ref target =>
      rw [check]
      constructor
      · intro refused
        split at refused
        · cases refused
        · rename_i unknown
          cases refused
          exact .target fun present => unknown (List.contains_iff_mem.mpr present)
      · rintro ⟨unknown⟩
        rw [if_neg fun present => unknown (List.contains_iff_mem.mp present)]
  | node key id type path =>
      rw [check, NodeName.choose, offends_node_iff]
      cases found : NodeName.explicit? key id with
      | none => simp [Except.map]
      | some entry =>
          obtain ⟨field, name⟩ := entry
          by_cases taken : name ∈ known
          · simp [taken, Except.map, eq_comm]
          · simp [taken, Except.map]

/-- A visit that is not refused adds the names that it assigns. -/
theorem check_eq_ok {known : List String} {visit : Visit} {names : List String}
    (h : visit.check known = .ok names) : names = visit.assigned known := by
  cases visit with
  | ref target =>
      rw [check] at h
      split at h
      · cases h
        rfl
      · cases h
  | node key id type path =>
      rw [check, NodeName.choose] at h
      rw [assigned]
      cases found : NodeName.explicit? key id with
      | none =>
          rw [found] at h
          cases h
          rfl
      | some entry =>
          rw [found] at h
          simp only at h
          split at h
          · cases h
          · cases h
            rfl

theorem offendsAt_zero {known : List String} {visit : Visit} {rest : List Visit}
    {error : CompileError} :
    OffendsAt known (visit :: rest) 0 error ↔ visit.Offends known error := by
  simp [OffendsAt, knownAfter]

theorem offendsAt_succ {known : List String} {visit : Visit} {rest : List Visit} {i : Nat}
    {error : CompileError} :
    OffendsAt known (visit :: rest) (i + 1) error ↔
      OffendsAt (known ++ visit.assigned known) rest i error := by
  simp [OffendsAt, knownAfter]

/-- The visits are refused for the fault of the first one that has any. -/
theorem checkAll_eq_error_iff {known : List String} {visits : List Visit} {error : CompileError} :
    checkAll known visits = .error error ↔
      ∃ i, OffendsAt known visits i error ∧
        ∀ j < i, ∀ earlier, ¬OffendsAt known visits j earlier := by
  induction visits generalizing known with
  | nil => simp [checkAll, OffendsAt]
  | cons visit rest ih =>
      rw [checkAll]
      cases checked : visit.check known with
      | error reason =>
          have fault : OffendsAt known (visit :: rest) 0 reason :=
            offendsAt_zero.mpr (check_eq_error_iff.mp checked)
          constructor
          · rintro ⟨⟩
            exact ⟨0, fault, fun j before => absurd before (Nat.not_lt_zero j)⟩
          · rintro ⟨i, offends, first⟩
            cases i with
            | zero =>
                rw [offendsAt_zero, ← check_eq_error_iff, checked] at offends
                exact offends
            | succ i => exact absurd fault (first 0 i.succ_pos reason)
      | ok names =>
          have blameless : ∀ error, ¬OffendsAt known (visit :: rest) 0 error := by
            intro error offends
            rw [offendsAt_zero, ← check_eq_error_iff, checked] at offends
            cases offends
          simp only
          rw [ih, check_eq_ok checked]
          constructor
          · rintro ⟨i, offends, first⟩
            refine ⟨i + 1, offendsAt_succ.mpr offends, ?_⟩
            intro j before earlier fault
            cases j with
            | zero => exact blameless earlier fault
            | succ j =>
                exact first j (Nat.lt_of_succ_lt_succ before) earlier (offendsAt_succ.mp fault)
          · rintro ⟨i, offends, first⟩
            cases i with
            | zero => exact absurd offends (blameless error)
            | succ i =>
                refine ⟨i, offendsAt_succ.mp offends, ?_⟩
                intro j before earlier fault
                exact first (j + 1) (Nat.succ_lt_succ before) earlier (offendsAt_succ.mpr fault)

/-- Visits that are not refused leave all names known that they assign. -/
theorem checkAll_eq_ok {known names : List String} {visits : List Visit}
    (h : checkAll known visits = .ok names) : names = knownAfter known visits := by
  induction visits generalizing known with
  | nil =>
      cases h
      rfl
  | cons visit rest ih =>
      rw [checkAll] at h
      split at h
      · cases h
      · rename_i added accepted
        rw [ih h, check_eq_ok accepted]
        rfl

end Visit

namespace Tree

mutual

/-- Naming a tree is looking at its visits, whatever visits follow. -/
theorem checkAll_visits (path : TreePath) (used : List String) (later : List Visit) :
    ∀ tree : Tree α, Visit.checkAll used (tree.visits path ++ later) =
      match tree.named path used with
      | .error error => .error error
      | .ok result => Visit.checkAll (used ++ result.names) later
  | ref target => by
      rw [visits, named, List.singleton_append, Visit.checkAll, Visit.check]
      by_cases known : used.contains target
      · simp only [if_pos known, NamedTree.names, NamedTree.preorder, List.map_nil]
      · simp only [if_neg known]
  | node key id shape children => by
      rw [visits, named, List.cons_append, Visit.checkAll, Visit.check]
      cases NodeName.choose used key id shape.typeName path with
      | error error => rfl
      | ok name =>
          have below := checkAll_visitsAll path 0 (used ++ [name]) later children
          simp only [Except.map, below]
          cases namedAll path 0 (used ++ [name]) children with
          | error error => rfl
          | ok results => simp only [NamedTree.names_node, List.append_assoc, List.singleton_append]

theorem checkAll_visitsAll (path : TreePath) (index : Nat) (used : List String)
    (later : List Visit) :
    ∀ trees : List (Tree α), Visit.checkAll used (visitsAll path index trees ++ later) =
      match namedAll path index used trees with
      | .error error => .error error
      | .ok results => Visit.checkAll (used ++ NamedTree.namesAll results) later
  | [] => by
      rw [visitsAll, namedAll]
      simp only [NamedTree.namesAll, NamedTree.preorderAll, List.map_nil, List.nil_append,
        List.append_nil]
  | tree :: rest => by
      rw [visitsAll, namedAll, List.append_assoc, checkAll_visits]
      cases named (path.child index) used tree with
      | error error => rfl
      | ok first =>
          simp only [checkAll_visitsAll path (index + 1) (used ++ first.names) later rest]
          cases namedAll path (index + 1) (used ++ first.names) rest with
          | error error => rfl
          | ok others => simp only [NamedTree.namesAll_cons, List.append_assoc]

end

variable [Scalar α]

/-- Compilation goes by the visits: it is refused as they are, and else the ids of the scene are the
names that they assign. -/
theorem map_ids_compile (tree : Tree α) :
    tree.compile.map Scene.ids = Visit.checkAll [] (tree.visits .top) := by
  have visited := checkAll_visits .top [] [] tree
  rw [List.append_nil] at visited
  rw [visited, compile_eq]
  cases tree.named .top [] with
  | error error => rfl
  | ok result =>
      simp only [Except.map, NamedTree.ids_scene, Visit.checkAll, List.nil_append]

theorem compile_eq_error_iff (tree : Tree α) (error : CompileError) :
    tree.compile = .error error ↔
      ∃ i, Visit.OffendsAt [] (tree.visits .top) i error ∧
        ∀ j < i, ∀ earlier, ¬Visit.OffendsAt [] (tree.visits .top) j earlier := by
  rw [← Visit.checkAll_eq_error_iff, ← map_ids_compile]
  cases tree.compile <;> simp [Except.map]

/-- A tree has a scene exactly if none of its visits is at fault, and then the ids are the names
that the visits assign. Otherwise it is refused for the fault of the first visit that has one. -/
theorem compile_decided_by_visits (tree : Tree α) :
    ((∃ scene, tree.compile = .ok scene) ↔
      ∀ i error, ¬Visit.OffendsAt [] (tree.visits .top) i error) ∧
    (∀ scene, tree.compile = .ok scene → scene.ids = Visit.knownAfter [] (tree.visits .top)) ∧
    ∀ error, tree.compile = .error error ↔
      ∃ i, Visit.OffendsAt [] (tree.visits .top) i error ∧
        ∀ j < i, ∀ earlier, ¬Visit.OffendsAt [] (tree.visits .top) j earlier := by
  refine ⟨?_, ?_, compile_eq_error_iff tree⟩
  · constructor
    · rintro ⟨scene, compiled⟩ i error offends
      classical
      -- The first visit with a fault would have been reported.
      have faulty : ∃ i, ∃ error, Visit.OffendsAt [] (tree.visits .top) i error :=
        ⟨i, error, offends⟩
      obtain ⟨reason, fault⟩ := Nat.find_spec faulty
      have refused : tree.compile = .error reason := by
        rw [compile_eq_error_iff]
        refine ⟨Nat.find faulty, fault, ?_⟩
        intro j before earlier faultBefore
        exact Nat.find_min faulty before ⟨earlier, faultBefore⟩
      rw [compiled] at refused
      cases refused
    · intro blameless
      cases compiled : tree.compile with
      | ok scene => exact ⟨scene, rfl⟩
      | error error =>
          obtain ⟨i, offends, _⟩ := (compile_eq_error_iff tree error).mp compiled
          exact absurd offends (blameless i error)
  · intro scene compiled
    have visited := map_ids_compile tree
    rw [compiled] at visited
    exact Visit.checkAll_eq_ok visited.symm

end Tree

end SceneLayout
