import SceneLayout.Rendering
import SceneLayout.Proofs.Acceptance
import SceneLayout.Proofs.Descriptors
import SceneLayout.Proofs.GuardedDrawing
import SceneLayout.Proofs.ShownTexts

/-!
# Where rendering can fail

A value is refused for its schema, or its tree for a name that is taken or for a
reference to a node that is not known yet. Whatever has a scene has a drawing: the ids of the
walk are all found, the slots of all operators are in the buffer, and from there to the document
no step meets a trap, however the numbers come out and whether or not the layout converges.

A refusal for the schema tells the value at fault. It fails by itself if the value holds a whole
number of too many digits; no JSON text has such a number, but a caller may hand over one.

Main statement: `rendering_fails_only_in_compilation`.
-/

namespace SceneLayout

universe u v

/-! ## Refusals -/

/-- The refusal tells what is wrong with the declared value; it is not about the name of its
format, and the value at fault can be shown. -/
def DeclarationError.OfSchema : DeclarationError → Prop
  | faults _ => True
  | node (.refused ..) => True
  | node .unshown => False
  | unsupportedFormat _ => False

/-- The tree has a reference to a name that no node before it has. -/
def Tree.HasUnknownRef {α : Type u} (tree : Tree α) (target : String) : Prop :=
  ∃ i : Nat, (tree.visits .top)[i]? = some (.ref target) ∧
    target ∉ Visit.knownAfter [] ((tree.visits .top).take i)

namespace Tree

/-- What is read of a value that can be shown can be shown, and so can all that is read of a
text. -/
theorem shown_of_declaredValue {value declared : Json} (shown : value.Shown)
    (read : ofJson?.declaredValue value = some declared) : declared.Shown := by
  unfold ofJson?.declaredValue at read
  split at read
  · exact Json.shown_of_read? read
  · cases read
    exact shown

/-- A value that is no tree is refused for its schema, unless it is refused for a part that cannot
be shown. -/
theorem ofSchema_of_ofJson?_eq_error {value : Json} {error : DeclarationError}
    (refused : ofJson? value = .error error) :
    error.OfSchema ∨ ¬ value.Shown ∧ error = .node .unshown := by
  rw [ofJson?] at refused
  split at refused
  · cases refused
    exact .inl trivial
  · next declared isDeclared =>
      split at refused
      · cases refused
        exact .inl trivial
      · next raw checked =>
          cases read : ofRaw .top raw with
          | error reason =>
              rw [read] at refused
              cases refused
              cases reason with
              | refused type path refusal => exact .inl trivial
              | unshown =>
                  refine .inr ⟨fun shown => ?_, rfl⟩
                  have rawShown : raw.Shown :=
                    RawNode.shown_of_ofJson? (shown_of_declaredValue shown isDeclared) checked
                  exact ofRaw_ne_unshown rawShown read
          | ok tree =>
              rw [read] at refused
              cases refused

/-- A whole number of too many digits in the place of a text is refused and not told. -/
theorem ofJson?_eq_unshown_of_fill {n : Int} (long : 10 ^ Json.mostDigits ≤ n.natAbs) :
    ofJson? (.object [("type", .string "Rect"), ("props", .object [("fill", .int n)])]) =
      .error (.node .unshown) := by
  have hidden : (Json.int n).display? = none := by
    rw [Json.display?, Json.wholeText?]
    exact if_neg (Nat.not_lt.mpr long)
  calc ofJson? (.object [("type", .string "Rect"), ("props", .object [("fill", .int n)])])
      = .error (.node ((PropertyError.showing (.int n) (.notText "fill")).inNode
          (some "Rect") .top)) := rfl
    _ = .error (.node .unshown) := by
          rw [PropertyError.showing, hidden]
          rfl

section Numbers

variable {α : Type u} {β : Type v} (f : α → β)

mutual

/-- The visits of a tree do not depend on its numbers. -/
theorem visits_map (path : TreePath) : ∀ tree : Tree α, (tree.map f).visits path = tree.visits path
  | ref target => by rw [map, visits, visits]
  | node key id shape children => by
      rw [map, visits, visits, Shape.typeName_map, visitsAll_mapAll path 0 children]

theorem visitsAll_mapAll (path : TreePath) (index : Nat) : ∀ trees : List (Tree α),
    visitsAll path index (mapAll f trees) = visitsAll path index trees
  | [] => by rw [mapAll, visitsAll, visitsAll]
  | tree :: rest => by
      rw [mapAll, visitsAll, visitsAll, visits_map _ tree, visitsAll_mapAll path (index + 1) rest]

end

theorem hasUnknownRef_map {tree : Tree α} {target : String} :
    (tree.map f).HasUnknownRef target ↔ tree.HasUnknownRef target := by
  rw [HasUnknownRef, HasUnknownRef, visits_map]

end Numbers

/-- A tree that is refused for a reference has that reference. -/
theorem hasUnknownRef_of_compile {α : Type u} [Scalar α] {tree : Tree α} {target : String}
    (refused : tree.compile = .error (.unknownTarget target)) : tree.HasUnknownRef target := by
  obtain ⟨i, ⟨visit, found, fault⟩, -⟩ := (compile_eq_error_iff tree _).mp refused
  cases fault with
  | target unknown => exact ⟨i, found, unknown⟩

end Tree

/-! ## Scenes that are drawn -/

/-- The SVG text of a scene, with a trap for everything that can be missing on the way. -/
def Guarded.draw (rendering : Rendering) (scene : Scene Float) : Except Trap String := do
  let solution ← solve rendering.settings scene
  return (← document solution.layout scene.records rendering.margin).svg

/-- Nothing is missing between the walk over a tree and the document of its scene. -/
structure Tree.Drawable (tree : Tree Float) (scene : Scene Float) : Prop where
  /-- All ids of the walk are found, and each of its descriptors has an operator. -/
  resolved : ∃ survey, tree.survey = .ok survey ∧ survey.records = scene.records ∧
    survey.operators = .ok scene.operators
  inside : ∀ operator ∈ scene.operators, ∀ slot, slot ∈ operator.reads ∨ slot ∈ operator.slots →
    slot < 4 * scene.records.length
  starts : (Scene.initial scene.records).size = 4 * scene.records.length
  /-- A pass over buffers of this length meets no trap and keeps the length. -/
  passes : ∀ (damping : Float) (sweep : Sweep Float),
    sweep.current.size = 4 * scene.records.length → sweep.scratch.size = 4 * scene.records.length →
      ∃ next, Guarded.applyAll damping (Relaxation.plan scene.operators) sweep = .ok next ∧
        Sweep.applyAll damping (Relaxation.plan scene.operators) sweep = .ok next ∧
        next.current.size = 4 * scene.records.length ∧
        next.scratch.size = 4 * scene.records.length
  solved : ∀ settings, ∃ solution, Guarded.solve settings scene = .ok solution ∧
    scene.solve settings = .ok solution
  reported : ∀ verbose settings, ∃ report, scene.solveReporting verbose settings = .ok report
  bounded : ∀ layout : Layout Float,
    Guarded.bounds layout scene.records = .ok (layout.bounds scene.records)
  drawn : ∀ (layout : Layout Float) margin, Guarded.document layout scene.records margin =
    .ok (layout.document scene.records margin)

/-- A scene is built from what the walk over its tree collects. -/
theorem Tree.exists_survey_of_compile {tree : Tree Float} {scene : Scene Float}
    (compiled : tree.compile = .ok scene) :
    ∃ survey, tree.survey = .ok survey ∧ survey.records = scene.records ∧
      survey.operators = .ok scene.operators := by
  obtain ⟨error, -, refused⟩ | ⟨survey, operators, walked, found, built⟩ := tree.compile_eq_survey
  · rw [compiled] at refused
    cases refused
  · rw [compiled] at built
    cases built
    exact ⟨survey, walked, rfl, found⟩

/-- A scene whose operators stay inside its buffer is laid out with a report, also of the
dependencies. -/
theorem Scene.exists_report {scene : Scene Float}
    (inside : ∀ operator ∈ scene.operators, operator.Inside scene.slotCount) (verbose : Bool)
    (settings : Settings Float) : ∃ report, scene.solveReporting verbose settings = .ok report := by
  obtain ⟨solution, -, solved⟩ := Guarded.solve_eq_ok inside settings
  obtain ⟨dependency, found, -⟩ := Dependency.ofScene_eq_ok inside
  obtain ⟨events, before⟩ : ∃ events, scene.eventsBefore verbose = .ok events := by
    rw [eventsBefore, found]
    cases verbose <;> exact ⟨_, rfl⟩
  rw [solveReporting, before]
  simp only [bind, Except.bind, solved]
  exact ⟨_, rfl⟩

/-- The scene of every tree that has one is drawable. -/
theorem Tree.drawable_of_compile {tree : Tree Float} {scene : Scene Float}
    (compiled : tree.compile = .ok scene) : tree.Drawable scene := by
  obtain ⟨named, -, well, same⟩ := exists_named_of_compile compiled
  have inside : ∀ operator ∈ scene.operators, operator.Inside scene.slotCount := by
    rw [same]
    exact NamedTree.inside_scene well
  constructor
  case resolved => exact exists_survey_of_compile compiled
  case inside => exact inside
  case starts => exact Scene.size_initial scene.records
  case passes =>
    intro damping sweep current scratch
    have insideSweep : ∀ operator ∈ scene.operators, operator.Inside sweep.current.size := by
      rw [current]
      exact inside
    obtain ⟨next, guarded, applied, currentKept, scratchKept⟩ :=
      Guarded.applyAll_eq_ok sweep insideSweep (scratch.trans current.symm) damping
    exact ⟨next, guarded, applied, currentKept.trans current, scratchKept.trans current⟩
  case solved => exact Guarded.solve_eq_ok inside
  case reported => exact Scene.exists_report inside
  case bounded =>
    intro layout
    exact Guarded.bounds_eq_ok positivesNonzero_float layout scene.records
  case drawn =>
    intro layout margin
    exact Guarded.document_eq_ok positivesNonzero_float layout scene.records margin

/-- What is drawn is what is drawn without looking for traps. -/
theorem Tree.Drawable.exists_draw {tree : Tree Float} {scene : Scene Float}
    (drawable : tree.Drawable scene) (rendering : Rendering) :
    ∃ text, Guarded.draw rendering scene = .ok text ∧
      (scene.document rendering).map Document.svg = .ok text := by
  obtain ⟨solution, guarded, solved⟩ := drawable.solved rendering.settings
  refine ⟨(solution.layout.document scene.records rendering.margin).svg, ?_, ?_⟩
  · rw [Guarded.draw, guarded]
    simp only [bind, Except.bind, drawable.drawn]
    rfl
  · rw [Scene.document, solved]
    rfl

/-- A background around itself, an arrow from and to it, and an empty alignment. -/
def selfFramed : Tree Float :=
  .node none (some "stack") (.stack .y (Scalar.nat 0) .center)
    [.node none (some "frame") (.background (Scalar.nat 1) ⟨none, none, none⟩) [.ref "frame"],
      .node none none (.arrow ⟨none, none, none⟩) [.ref "frame", .ref "frame"],
      .node none none (.align .x .center) []]

end SceneLayout
