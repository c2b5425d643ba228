import SceneLayout.Proofs.Compilation
import SceneLayout.Proofs.Exact

/-!
# Operators that write a common slot

Feedback is told from what operators read and write. Almost every operator reads what it
writes, so two of them that write a common slot feed each other. The operator of a
background alone never looks at its box: it feeds whoever else writes the box, but is
fed back only if that one also reaches its child. Without that the two compete for the
box, and the graph of operators does not tell.

Main statement: `together_of_common_slot`.
-/

namespace SceneLayout

universe u

/-- Two vertices stand in one feedback group. -/
def Digraph.Together (graph : Digraph) (v w : Nat) : Prop :=
  ∃ group ∈ graph.feedback, v ∈ group ∧ w ∈ group

namespace Scene

variable {α : Type u} {scene : Scene α} {i j : Nat} {first second : Operator α}

/-- Unless it sets a box, an operator is fed by all others that write one of its slots. -/
theorem feeds_of_common_slot (apart : i ≠ j) (atI : scene.operators[i]? = some first)
    (atJ : scene.operators[j]? = some second) (placed : second.OnEntities)
    (noBox : ¬second.IsBackground) {slot : Nat} (inFirst : slot ∈ first.slots)
    (inSecond : slot ∈ second.slots) : scene.Feeds i j := by
  obtain ⟨read, isRead, owner⟩ := Operator.exists_read_of_mem_slots placed noBox inSecond
  refine ⟨apart, first, second, atI, atJ, slot, inFirst, read, isRead, ?_⟩
  rw [owner?, owner?, owner]

/-- Feeding through other operators is reaching in the graph of operators. -/
theorem reaches_iff {dependency : Dependency} (found : Dependency.ofScene scene = .ok dependency) :
    dependency.operators.Reaches i j ↔ Relation.TransGen scene.Feeds i j := by
  rw [Digraph.Reaches]
  have steps : (fun v w => (v, w) ∈ dependency.operators.arcs) = scene.Feeds := by
    ext v w
    exact Dependency.mem_arcs_iff found
  rw [steps]

/-- Feedback makes the graph of operators cyclic. -/
theorem acyclic_eq_false {dependency : Dependency}
    (found : Dependency.ofScene scene = .ok dependency) (apart : i ≠ j)
    (together : dependency.operators.Together i j) : dependency.operators.acyclic = false := by
  have closed := Dependency.closed_operators found
  obtain ⟨out, back⟩ := (Digraph.shares_feedback_iff closed apart).mp together
  rw [← Bool.not_eq_true, Digraph.acyclic_iff closed]
  intro none
  exact none i (out.trans back)

end Scene

variable {α : Type u} [Scalar α]

/-- Of two operators of a compiled scene that write a common slot, at most one sets a box. If none
does, they are reported as feedback. If one does, it feeds the other one, and they are reported
exactly if that one feeds it back, directly or through others. -/
theorem together_of_common_slot {tree : Tree α} {scene : Scene α}
    (compiled : tree.compile = .ok scene) :
    ∃ dependency, Dependency.ofScene scene = .ok dependency ∧
      ∀ (i j : Nat) (first second : Operator α), i ≠ j → scene.operators[i]? = some first →
        scene.operators[j]? = some second → (∃ slot ∈ first.slots, slot ∈ second.slots) →
        (¬first.IsBackground → ¬second.IsBackground →
          dependency.operators.Together i j ∧ dependency.operators.acyclic = false) ∧
        (first.IsBackground → ¬second.IsBackground ∧ scene.Feeds i j ∧
          (dependency.operators.Together i j ↔ Relation.TransGen scene.Feeds j i)) := by
  obtain ⟨tree, -, named, rfl⟩ := Tree.exists_named_of_compile compiled
  obtain ⟨dependency, found, -⟩ := Dependency.ofScene_eq_ok (NamedTree.inside_scene named)
  refine ⟨dependency, found, ?_⟩
  rintro i j first second apart atI atJ ⟨slot, inFirst, inSecond⟩
  have placedFirst := NamedTree.onEntities_scene first (List.mem_of_getElem? atI)
  have placedSecond := NamedTree.onEntities_scene second (List.mem_of_getElem? atJ)
  have closed := Dependency.closed_operators found
  constructor
  · intro noBox noBox'
    have out := Scene.feeds_of_common_slot apart atI atJ placedSecond noBox' inFirst inSecond
    have back := Scene.feeds_of_common_slot apart.symm atJ atI placedFirst noBox inSecond inFirst
    have together : dependency.operators.Together i j :=
      (Digraph.shares_feedback_iff closed apart).mpr
        ⟨(Scene.reaches_iff found).mpr (.single out), (Scene.reaches_iff found).mpr (.single back)⟩
    exact ⟨together, Scene.acyclic_eq_false found apart together⟩
  · intro box
    have noBox : ¬second.IsBackground := by
      intro box'
      exact NamedTree.disjoint_boxes_scene named apart atI atJ box box' inFirst inSecond
    have out := Scene.feeds_of_common_slot apart atI atJ placedSecond noBox inFirst inSecond
    refine ⟨noBox, out, ?_⟩
    rw [Digraph.Together, Digraph.shares_feedback_iff closed apart, Scene.reaches_iff found,
      Scene.reaches_iff found]
    exact ⟨And.right, fun back => ⟨.single out, back⟩⟩

/-- A node with an id and no paint. -/
def plainRect (id : String) : Tree ℚ :=
  .node none (some id) (.rect 0 0 10 10 ⟨none, none, none⟩) []

/-- Two rectangles that are aligned twice, by near and by far edges. -/
def crossedAligns : Tree ℚ :=
  .node none (some "scene") .group
    [.node none (some "near") (.align .x .start) [plainRect "a", plainRect "b"],
      .node none (some "far") (.align .x .finish) [.ref "a", .ref "b"]]

/-- Both alignments write the positions of both rectangles, and are reported. -/
theorem together_crossedAligns :
    ∃ scene dependency, crossedAligns.compile = .ok scene ∧
      Dependency.ofScene scene = .ok dependency ∧
      dependency.operators.Together 0 1 ∧ dependency.operators.acyclic = false := by
  obtain ⟨scene, compiled, near, far⟩ : ∃ scene, crossedAligns.compile = .ok scene ∧
      scene.operators[0]? = some (.alignNear [8, 12]) ∧
      scene.operators[1]? = some (.alignFar [⟨8, 10⟩, ⟨12, 14⟩]) := ⟨_, rfl, rfl, rfl⟩
  obtain ⟨dependency, found, competing⟩ := together_of_common_slot compiled
  have common : ∃ slot ∈ (.alignNear [8, 12] : Operator ℚ).slots,
      slot ∈ (.alignFar [⟨8, 10⟩, ⟨12, 14⟩] : Operator ℚ).slots :=
    ⟨8, by decide, by decide⟩
  have reported := (competing 0 1 _ _ (by decide) near far common).1 id id
  exact ⟨scene, dependency, compiled, found, reported⟩

/-- A box in a stack, around a rectangle that is not in the stack itself. -/
def boxInStack : Tree ℚ :=
  .node none (some "stack") (.stack .y 0 .start)
    [.node none (some "box") (.background 1 ⟨none, none, none⟩) [plainRect "content"]]

/-- Its scene. -/
def boxInStackScene : Scene ℚ where
  records := [Shape.record "stack" (.stack .y 0 .start),
    Shape.record "box" (.background 1 ⟨none, none, none⟩),
    Shape.record "content" (.rect 0 0 10 10 ⟨none, none, none⟩)]
  operators := [.background 8 4 1, .stack .y [4] 0 0 .start]

/-- The box is placed around its child and at the top of the stack, and nothing is reported. -/
theorem boxInStack_not_together :
    boxInStack.compile = .ok boxInStackScene ∧
      ∃ dependency first second, Dependency.ofScene boxInStackScene = .ok dependency ∧
        boxInStackScene.operators[0]? = some first ∧
        boxInStackScene.operators[1]? = some second ∧
        (∃ slot ∈ first.slots, slot ∈ second.slots) ∧
        ¬dependency.operators.Together 0 1 ∧ dependency.operators.acyclic = true := by
  have inside : ∀ operator ∈ boxInStackScene.operators,
      operator.Inside boxInStackScene.slotCount := by
    decide
  obtain ⟨dependency, found, operators⟩ := Dependency.ofScene_eq_ok inside
  refine ⟨rfl, dependency, _, _, found, rfl, rfl, ?_, ?_, ?_⟩
  · exact ⟨4, by decide, by decide⟩
  · rw [Digraph.Together, operators]
    decide +kernel
  · rw [operators]
    decide +kernel

end SceneLayout
