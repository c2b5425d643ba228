import Mathlib.Logic.Equiv.Basic
import SceneLayout.Drawing.Document
import SceneLayout.Number.Double
import SceneLayout.Proofs.Boxes
import SceneLayout.Proofs.ExplicitNames

/-!
# Renamed trees

Names only tell nodes apart. If the names of a tree are all explicit and are changed by an
injective function that keeps the empty text, then the tree is refused for the same reason, said of
the changed name, or it has the same scene, layout and document with changed names.

## Implementation notes

Each step that looks at names gets one lemma, which says that it commutes with renaming. Laying out
and drawing commute for every scene and every layout; only naming needs explicit names.

Main statement: `renaming_changes_names_only`.
-/

namespace SceneLayout

universe u

variable {α : Type u}

/-! ## What is renamed -/

/-- The record with another id, and with other ids of the ends of an arrow. -/
def Record.rename (f : String → String) (record : Record α) : Record α :=
  { record with
    id := f record.id
    fromId := record.fromId.map f
    toId := record.toId.map f }

/-- The scene with other ids and the same operators. -/
def Scene.rename (f : String → String) (scene : Scene α) : Scene α where
  records := scene.records.map (Record.rename f)
  operators := scene.operators

/-- The layout with the same boxes for other ids. -/
def Layout.rename (f : String → String) (layout : Layout α) : Layout α :=
  layout.map (Prod.map f id)

/-- The solution with the same boxes for other ids, and with the same statistics. -/
def Solution.rename (f : String → String) (solution : Solution α) : Solution α :=
  ⟨solution.layout.rename f, solution.stats⟩

/-- The element with another id, if it has one. -/
def Element.rename (f : String → String) : Element α → Element α
  | rect id x y width height paint => .rect (f id) x y width height paint
  | circle id cx cy r paint => .circle (f id) cx cy r paint
  | text id x y content paint => .text (f id) x y content paint
  | line id x1 y1 x2 y2 paint => .line (f id) x1 y1 x2 y2 paint
  | polygon id points paint => .polygon (id.map f) points paint

/-- The document with other ids of its elements. -/
def Document.rename (f : String → String) (document : Document α) : Document α :=
  { document with elements := document.elements.map (Element.rename f) }

/-! ## Compilation -/

theorem idxOf_map {f : String → String} (injective : Function.Injective f) (names : List String)
    (name : String) : (names.map f).idxOf (f name) = names.idxOf name := by
  induction names with
  | nil => rfl
  | cons first rest ih =>
      rw [List.map_cons]
      by_cases same : first = name
      · rw [List.idxOf_cons_eq _ same, List.idxOf_cons_eq _ (congrArg f same)]
      · rw [List.idxOf_cons_ne _ same, List.idxOf_cons_ne _ (injective.ne same), ih]

section Compiled

variable {f : String → String} [Scalar α]

theorem Shape.record_rename (shape : Shape α) (id : String) :
    shape.record (f id) = (shape.record id).rename f := by
  cases shape <;> rfl

namespace NamedNode

theorem record_rename (node : NamedNode α) : (node.rename f).record = node.record.rename f := by
  obtain ⟨name, shape, children⟩ := node
  cases shape with
  | arrow style =>
      match children with
      | [] => rfl
      | [source] => rfl
      | source :: target :: rest => rfl
  | _ => rfl

omit [Scalar α] in
theorem operator?_rename (injective : Function.Injective f) (names : List String)
    (node : NamedNode α) : (node.rename f).operator? (names.map f) = node.operator? names := by
  have children : (node.children.map f).map (names.map f).idxOf =
      node.children.map names.idxOf := by
    rw [List.map_map]
    exact List.map_congr_left fun name _ => idxOf_map injective names name
  rw [operator?, operator?, rename]
  simp only [children, idxOf_map injective]

end NamedNode

theorem NamedTree.scene_rename (injective : Function.Injective f) (tree : NamedTree α) :
    (tree.rename f).scene = tree.scene.rename f := by
  have records : ((tree.preorder.map (NamedNode.rename f)).map NamedNode.record) =
      (tree.preorder.map NamedNode.record).map (Record.rename f) := by
    rw [List.map_map, List.map_map]
    exact List.map_congr_left fun node _ => node.record_rename
  have operators : (tree.postorder.map (NamedNode.rename f)).filterMap
      (NamedNode.operator? (tree.names.map f)) =
        tree.postorder.filterMap (NamedNode.operator? tree.names) := by
    rw [List.filterMap_map]
    exact List.filterMap_congr fun node _ => node.operator?_rename injective tree.names
  rw [scene, preorder_rename, postorder_rename, names_rename, records, operators, scene,
    Scene.rename]

/-- A tree with explicit names is compiled before or after it is renamed. -/
theorem Tree.compile_rename (renames : Renames f) {tree : Tree α}
    (explicit : ∀ node ∈ tree.nodes, node.HasName) :
    (tree.rename f).compile =
      (tree.compile.map (Scene.rename f)).mapError (CompileError.rename f) := by
  have untaken : ∀ name ∈ tree.mentioned, f name ∈ ([] : List String) ↔ name ∈ ([] : List String) :=
    fun name _ => iff_of_false List.not_mem_nil List.not_mem_nil
  have named := named_rename renames .top .top explicit untaken
  rw [compile_eq, compile_eq, named]
  cases tree.named .top [] with
  | error error => rfl
  | ok result =>
      simp only [Except.map, Except.mapError, NamedTree.scene_rename renames.injective]

end Compiled

/-! ## Laying out -/

section Solved

variable {f : String → String} [Scalar α]

omit [Scalar α] in
theorem Scene.initial_rename (records : List (Record α)) :
    initial (records.map (Record.rename f)) = initial records := by
  rw [initial, initial, List.flatMap_map]
  rfl

omit [Scalar α] in
theorem Scene.boxes_rename (buffer : Buffer α) (rank : Nat) (records : List (Record α)) :
    boxes buffer rank (records.map (Record.rename f)) =
      (boxes buffer rank records).map (List.map (Prod.map f id)) := by
  induction records generalizing rank with
  | nil => rfl
  | cons record rest ih =>
      rw [List.map_cons, boxes, boxes, ih]
      cases buffer.box (baseOf rank) with
      | error error => rfl
      | ok box => cases boxes buffer (rank + 1) rest <;> rfl

/-- A scene is laid out before or after it is renamed, whatever comes of it. -/
theorem Scene.solve_rename (injective : Function.Injective f) (scene : Scene α)
    (settings : Settings α) :
    (scene.rename f).solve settings = (scene.solve settings).map (Solution.rename f) := by
  rw [solve, solve, rename, initial_rename]
  cases relax settings scene.operators (initial scene.records) with
  | error interruption => rfl
  | ok ran =>
      obtain ⟨buffer, stats⟩ := ran
      simp only [Except.mapError, bind, Except.bind, boxes_rename]
      cases boxes buffer 0 scene.records with
      | error error => rfl
      | ok entries =>
          simp only [Except.map, pure, Except.pure, Entries.ofList_image injective]
          rfl

end Solved

/-! ## Drawing -/

section Drawn

variable {f : String → String} [Scalar α]

omit [Scalar α] in
theorem Layout.find?_rename (injective : Function.Injective f) (layout : Layout α) (id : String) :
    Entries.find? (layout.rename f) (f id) = Entries.find? layout id := by
  rw [rename, Entries.find?_image injective]
  exact Option.map_id_apply

namespace Record

omit [Scalar α] in
theorem find?_byId_rename (injective : Function.Injective f) (records : List (Record α))
    (id : String) :
    Entries.find? (byId (records.map (Record.rename f))) (f id) =
      (Entries.find? (byId records) id).map (Record.rename f) := by
  have entries : (records.map (Record.rename f)).map (fun record => (record.id, record)) =
      (records.map fun record => (record.id, record)).map (Prod.map f (Record.rename f)) := by
    rw [List.map_map, List.map_map]
    rfl
  rw [byId, entries, Entries.ofList_image injective, Entries.find?_image injective, byId]

omit [Scalar α] in
theorem arrowEnds_rename (renames : Renames f) (record : Record α) (layout : Layout α) :
    (record.rename f).arrowEnds (layout.rename f) = record.arrowEnds layout := by
  have boxOf (id : Option String) :
      arrowEnds.boxOf (layout.rename f) (id.map f) = arrowEnds.boxOf layout id := by
    cases id with
    | none => rfl
    | some id =>
        have same : (f id).isEmpty = id.isEmpty := renames.isEmpty_eq id
        simp only [arrowEnds.boxOf, Option.map_some, same, layout.find?_rename renames.injective]
  rw [arrowEnds, arrowEnds, rename]
  simp only [boxOf]

variable [VectorLength α]

theorem arrowPoints_rename (renames : Renames f) (record : Record α) (layout : Layout α)
    (offset : Vec α) :
    (record.rename f).arrowPoints (layout.rename f) offset = record.arrowPoints layout offset := by
  rw [arrowPoints, arrowPoints, arrowEnds_rename renames]

theorem elements_rename (renames : Renames f) (record : Record α) (layout : Layout α)
    (offset : Vec α) (id : String) (box : Box α) :
    (record.rename f).elements (layout.rename f) offset (f id) box =
      (record.elements layout offset id box).map (Element.rename f) := by
  have points := record.arrowPoints_rename renames layout offset
  have kept : (record.rename f).kind = record.kind := rfl
  cases kind : record.kind with
  | none | rect | circle | text =>
      simp only [elements, kept, kind]
      rfl
  | arrow =>
      simp only [elements, kept, kind, points]
      cases record.arrowPoints layout offset <;> rfl

end Record

namespace Layout

variable [VectorLength α]

theorem entityBounds_rename (renames : Renames f) (layout : Layout α)
    (record : Option (Record α)) (box : Box α) :
    (layout.rename f).entityBounds (record.map (Record.rename f)) box =
      layout.entityBounds record box := by
  cases record with
  | none => rfl
  | some record =>
      have points := record.arrowPoints_rename renames layout ⟨Scalar.nat 0, Scalar.nat 0⟩
      have kept : (record.rename f).kind = record.kind := rfl
      have stroke : (record.rename f).drawnStrokeWidth = record.drawnStrokeWidth := rfl
      simp only [Option.map_some, entityBounds, kept, stroke, points]

theorem bounds_rename (renames : Renames f) (layout : Layout α) (records : List (Record α)) :
    (layout.rename f).bounds (records.map (Record.rename f)) = layout.bounds records := by
  have entities : ((layout.rename f).map fun entry => (layout.rename f).entityBounds
      (Entries.find? (Record.byId (records.map (Record.rename f))) entry.1) entry.2) =
        layout.map fun entry =>
          layout.entityBounds (Entries.find? (Record.byId records) entry.1) entry.2 := by
    rw [rename, List.map_map]
    apply List.map_congr_left
    intro entry _
    have found := Record.find?_byId_rename renames.injective records entry.1
    simp only [Function.comp_apply, Prod.map_fst, Prod.map_snd, found, id]
    exact entityBounds_rename renames layout _ entry.2
  simp only [bounds, entities]

/-- A layout is drawn before or after it is renamed. -/
theorem document_rename (renames : Renames f) (layout : Layout α) (records : List (Record α))
    (margin : α) :
    (layout.rename f).document (records.map (Record.rename f)) margin =
      (layout.document records margin).rename f := by
  simp only [document, Document.rename, bounds_rename renames]
  congr 1
  rw [List.map_flatMap, rename, List.flatMap_map]
  apply List.flatMap_congr
  intro entry _
  have found := Record.find?_byId_rename renames.injective records entry.1
  simp only [Prod.map_fst, Prod.map_snd, found, id]
  cases Entries.find? (Record.byId records) entry.1 with
  | none => rfl
  | some record => exact record.elements_rename renames layout _ entry.1 entry.2

end Layout

end Drawn

/-- Where all names are explicit, a tree whose names are changed is refused exactly if the tree is,
for the same reason said of the changed name. Otherwise its scene has the same records with changed
ids, also at the ends of arrows, and the same operators; its layout has the same boxes and the same
statistics, and its document the same page with the same elements, for the changed ids. -/
theorem renaming_changes_names_only [Scalar α] [VectorLength α] {f : String → String}
    (injective : Function.Injective f) (void : f "" = "") {tree : Tree α}
    (explicit : ∀ node ∈ tree.nodes, node.HasName) :
    (∀ error, (tree.rename f).compile = .error error ↔
      ∃ cause, tree.compile = .error cause ∧ error = cause.rename f) ∧
    ∀ scene, tree.compile = .ok scene → (tree.rename f).compile = .ok (scene.rename f) ∧
      ∀ settings margin, ∃ solution, scene.solve settings = .ok solution ∧
        (scene.rename f).solve settings = .ok (solution.rename f) ∧
        (solution.rename f).layout.document (scene.rename f).records margin =
          (solution.layout.document scene.records margin).rename f := by
  have renames : Renames f := ⟨injective, void⟩
  have renamed := Tree.compile_rename renames explicit
  constructor
  · intro error
    rw [renamed]
    cases tree.compile with
    | error cause => simp [Except.map, Except.mapError, eq_comm]
    | ok scene => simp [Except.map, Except.mapError]
  · intro scene compiled
    rw [renamed, compiled]
    refine ⟨rfl, ?_⟩
    intro settings margin
    obtain ⟨named, _, well, rfl⟩ := Tree.exists_named_of_compile compiled
    have distinct : named.scene.ids.Nodup := by
      rw [NamedTree.ids_scene]
      exact well.distinct
    obtain ⟨count, solved, -⟩ := Scene.solve_eq_ok distinct (NamedTree.inside_scene well) settings
    refine ⟨_, solved, ?_, Layout.document_rename renames _ _ margin⟩
    rw [Scene.solve_rename injective, solved]
    rfl

/-- A disc whose key hides an id that is also the name of its note, and an arrow between the two. -/
def notedDisc : Tree Float :=
  .node (some "picture") none .group
    [.node (some "disc") (some "note") (.circle 4 10 0 ⟨none, none, none⟩) [],
      .node none (some "note") (.text "hi" 0 0 none none ⟨none, none, none⟩) [],
      .node (some "") (some "link") (.arrow ⟨none, none, none⟩) [.ref "disc", .ref "note"]]

/-- The disc and the note change their names, so the hidden id becomes the name of the other. -/
theorem renaming_notedDisc :
    ∃ scene, notedDisc.compile = .ok scene ∧
      (notedDisc.rename (Equiv.swap "disc" "note")).compile =
        .ok (scene.rename (Equiv.swap "disc" "note")) ∧
      ∀ settings margin, ∃ solution, scene.solve settings = .ok solution ∧
        (scene.rename (Equiv.swap "disc" "note")).solve settings =
          .ok (solution.rename (Equiv.swap "disc" "note")) ∧
        (solution.rename (Equiv.swap "disc" "note")).layout.document
            (scene.rename (Equiv.swap "disc" "note")).records margin =
          (solution.layout.document scene.records margin).rename (Equiv.swap "disc" "note") := by
  have explicit : ∀ node ∈ notedDisc.nodes, node.HasName := by
    simp only [notedDisc, Tree.nodes, Tree.nodesAll, List.forall_mem_cons, List.append_nil,
      List.nil_append, List.cons_append]
    exact ⟨⟨"picture", by decide, .inl rfl⟩, ⟨"disc", by decide, .inl rfl⟩,
      ⟨"note", by decide, .inr rfl⟩, ⟨"link", by decide, .inr rfl⟩, List.forall_mem_nil _⟩
  have void : Equiv.swap "disc" "note" "" = "" :=
    Equiv.swap_apply_of_ne_of_ne (by decide) (by decide)
  obtain ⟨scene, compiled⟩ : ∃ scene, notedDisc.compile = .ok scene := ⟨_, rfl⟩
  have same := renaming_changes_names_only (Equiv.swap "disc" "note").injective void explicit
  exact ⟨scene, compiled, same.2 scene compiled⟩

end SceneLayout
