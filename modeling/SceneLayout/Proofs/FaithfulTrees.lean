import SceneLayout.Proofs.NodeSchema
import SceneLayout.Proofs.PropertyReading

/-!
# Trees are faithful to their declarations

A tree that is read mirrors the declared value node for node, with shapes of the declared types
whose numbers are finite doubles. And every value is read whose nodes have no fields but the
known ones, each of its kind, whose references name their targets and have no children, and whose
properties are of the kinds that their types look for.

Main statement: `declared_trees_faithful`.
-/

namespace SceneLayout

/-- Every node of the value has fields and properties of the right kinds. -/
inductive Json.Acceptable : Json → Prop where
  | node {members : Entries Json} {node : DeclaredNode} (declared : node.IsDeclaredBy members)
      (obeys : node.ObeysRefs) (readable : Shape.Readable node.type node.props)
      (below : ∀ item ∈ node.items, Acceptable item) : Acceptable (.object members)

/-- Partners of single items make a list of partners. -/
theorem exists_forall₂_of_forall {α β : Type} {related : α → β → Prop} {items : List α}
    (h : ∀ item ∈ items, ∃ other, related item other) :
    ∃ others, List.Forall₂ related items others := by
  induction items with
  | nil => exact ⟨[], .nil⟩
  | cons item rest ih =>
      obtain ⟨other, first⟩ := h item List.mem_cons_self
      obtain ⟨others, below⟩ := ih fun item member => h item (List.mem_cons_of_mem _ member)
      exact ⟨other :: others, .cons first below⟩

namespace Tree

/-- An acceptable value declares a tree. -/
theorem exists_mirrors_of_acceptable {value : Json} (h : value.Acceptable) :
    ∃ tree, Mirrors Declares value tree := by
  induction h with
  | @node members node declared obeys readable _ below =>
      by_cases type : node.type = "Ref"
      · obtain ⟨⟨target, named, written⟩, leaf⟩ := obeys type
        exact ⟨.ref target, .ref declared type named written leaf⟩
      · obtain ⟨shape, shaped⟩ := Shape.exists_ofProps_eq_ok readable
        obtain ⟨children, mirrors⟩ := exists_forall₂_of_forall below
        exact ⟨.node node.key node.id shape children, .node declared type shaped mirrors⟩

end Tree

/-- What is read mirrors what is declared: references keep their targets, other nodes keep their
names and their children in order, and their shapes are of the declared types with finite
doubles for numbers. And an acceptable value is read. -/
theorem declared_trees_faithful (value : Json) :
    (∀ tree, Tree.ofJson? value = .ok tree →
      ∃ declared, Tree.ofJson?.declaredValue value = some declared ∧
        Tree.Mirrors (fun type props shape => shape.FaithfulTo type props) declared tree) ∧
    (∀ declared, Tree.ofJson?.declaredValue value = some declared → declared.Acceptable →
      ∃ tree, Tree.ofJson? value = .ok tree) := by
  constructor
  · intro tree read
    obtain ⟨declared, isDeclared, mirrors⟩ := Tree.ofJson?_eq_ok_iff.mp read
    refine ⟨declared, isDeclared, Tree.Mirrors.imp ?_ declared tree mirrors⟩
    intro type props shape shaped
    exact Shape.faithfulTo_of_ofProps shaped
  · intro declared isDeclared acceptable
    obtain ⟨tree, mirrors⟩ := Tree.exists_mirrors_of_acceptable acceptable
    exact ⟨tree, Tree.ofJson?_eq_ok_iff.mpr ⟨declared, isDeclared, mirrors⟩⟩

/-- A disc, a reference to it, and a node of a type that has no shape of its own. -/
def declaredDisc : Json :=
  .object [("type", .string "Group"), ("children", .array [
    .object [("type", .string "Circle"), ("key", .string "disc"),
      ("props", .object [("r", .int 5), ("fill", .null)])],
    .object [("type", .string "Ref"), ("target", .string "disc")],
    .object [("type", .string "Legend"), ("id", .null)]])]

theorem acceptable_declaredDisc : declaredDisc.Acceptable := by
  have disc : Json.Acceptable (.object [("type", .string "Circle"), ("key", .string "disc"),
      ("props", .object [("r", .int 5), ("fill", .null)])]) := by
    refine @Json.Acceptable.node _ ⟨"Circle", none, some "disc", [("r", .int 5), ("fill", .null)],
      [], none⟩ ⟨rfl, .null, .string _, .object _, .null, .null, by decide⟩
      (fun isRef => absurd isRef (by decide)) ⟨?_, fun listed => absurd listed (by decide)⟩
      (List.forall_mem_nil _)
    simp only [Shape.properties, Style.properties, List.forall_mem_append, List.forall_mem_cons]
    exact ⟨⟨⟨by decide +kernel, by decide⟩, trivial, trivial, List.forall_mem_nil _⟩,
      trivial, trivial, trivial, List.forall_mem_nil _⟩
  have reference : Json.Acceptable (.object [("type", .string "Ref"),
      ("target", .string "disc")]) :=
    @Json.Acceptable.node _ ⟨"Ref", none, none, [], [], some "disc"⟩
      ⟨rfl, .null, .null, .null, .null, .string _, by decide⟩
      (fun _ => ⟨⟨"disc", rfl, by decide⟩, rfl⟩)
      ⟨List.forall_mem_nil _, fun listed => absurd listed (by decide)⟩ (List.forall_mem_nil _)
  have legend : Json.Acceptable (.object [("type", .string "Legend"), ("id", .null)]) :=
    @Json.Acceptable.node _ ⟨"Legend", none, none, [], [], none⟩
      ⟨rfl, .null, .null, .null, .null, .null, by decide⟩
      (fun isRef => absurd isRef (by decide))
      ⟨List.forall_mem_nil _, fun listed => absurd listed (by decide)⟩ (List.forall_mem_nil _)
  refine @Json.Acceptable.node _ ⟨"Group", none, none, [], [_, _, _], none⟩
    ⟨rfl, .null, .null, .null, .array _, .null, by decide⟩
    (fun isRef => absurd isRef (by decide))
    ⟨List.forall_mem_nil _, fun listed => absurd listed (by decide)⟩ ?_
  simp only [List.forall_mem_cons]
  exact ⟨disc, reference, legend, List.forall_mem_nil _⟩

/-- The disc and what refers to it are read as a tree that mirrors them. -/
theorem declaredDisc_faithful :
    declaredDisc.Acceptable ∧ ∃ tree, Tree.ofJson? declaredDisc = .ok tree ∧
      Tree.Mirrors (fun type props shape => shape.FaithfulTo type props) declaredDisc tree := by
  obtain ⟨sound, complete⟩ := declared_trees_faithful declaredDisc
  obtain ⟨tree, read⟩ := complete declaredDisc rfl acceptable_declaredDisc
  obtain ⟨declared, isDeclared, mirrors⟩ := sound tree read
  cases isDeclared
  exact ⟨acceptable_declaredDisc, tree, read, mirrors⟩

end SceneLayout
