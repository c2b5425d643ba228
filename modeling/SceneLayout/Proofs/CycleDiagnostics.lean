import Mathlib.Data.List.Sigma
import SceneLayout.Proofs.Competition
import SceneLayout.Proofs.ProcessingOrder

/-!
# Diagnostics of cycles

Whether operators go round in a circle is told in three ways: by a flag, by an order in which
each of them runs behind those that feed it, and by the groups that feed each other. The flag
and the groups are read off the closed rows, the order comes from processing the operators one
by one, and they never disagree.

## Implementation notes

No operator has an arc to itself, although almost all of them read what they write. Without
loops a cycle goes through two vertices, and so it shows up as a group.

Main statement: `diagnostics_agree`.
-/

namespace SceneLayout

universe u

namespace Digraph

variable {graph : Digraph}

/-- Every group has two different members. -/
theorem exists_ne_of_mem_feedback {group : List Nat} (listed : group ∈ graph.feedback) :
    ∃ v ∈ group, ∃ w ∈ group, v ≠ w := by
  rw [feedback, List.mem_filterMap] at listed
  obtain ⟨u, -, chosen⟩ := listed
  rw [Option.ite_none_right_eq_some, Option.some.injEq] at chosen
  obtain ⟨⟨-, long⟩, rfl⟩ := chosen
  have distinct : (graph.component graph.closure u).Nodup := List.nodup_range.filter _
  refine ⟨_, List.getElem_mem (Nat.zero_lt_of_lt long), _, List.getElem_mem long, ?_⟩
  intro same
  exact Nat.zero_ne_one (distinct.getElem_inj_iff.mp same)

/-- There is no group exactly if no two vertices reach each other. -/
theorem feedback_eq_nil_iff (closed : graph.Closed) :
    graph.feedback = [] ↔ ∀ v w, v ≠ w → ¬(graph.Reaches v w ∧ graph.Reaches w v) := by
  rw [List.eq_nil_iff_forall_not_mem]
  constructor
  · intro none v w apart both
    obtain ⟨group, listed, -⟩ := (shares_feedback_iff closed apart).mpr both
    exact none group listed
  · intro none group listed
    obtain ⟨v, inV, w, inW, apart⟩ := exists_ne_of_mem_feedback listed
    exact none v w apart ((shares_feedback_iff closed apart).mp ⟨group, listed, inV, inW⟩)

/-- Without loops a graph is acyclic exactly if it has no group. -/
theorem acyclic_iff_feedback_eq_nil (closed : graph.Closed)
    (loopless : ∀ v, (v, v) ∉ graph.arcs) :
    graph.acyclic = true ↔ graph.feedback = [] := by
  rw [acyclic_iff closed, feedback_eq_nil_iff closed]
  constructor
  · intro none v w _ both
    exact none v (both.1.trans both.2)
  · intro none v cycle
    obtain ⟨w, arc, back⟩ := Relation.TransGen.head'_iff.mp cycle
    have apart : w ≠ v := by
      rintro rfl
      exact loopless w arc
    have home : graph.Reaches w v :=
      (Relation.reflTransGen_iff_eq_or_transGen.mp back).resolve_left apart.symm
    exact none v w apart.symm ⟨.single arc, home⟩

end Digraph

namespace Dependency

variable {α : Type u} {scene : Scene α} {dependency : Dependency}

/-- No arc between operators is listed twice. -/
theorem nodup_operatorArcs (accesses : List Access) : (operatorArcs accesses).Nodup := by
  have ranks : accesses.zipIdx.Pairwise fun a b => a.2 ≠ b.2 :=
    List.pairwise_map.mp (List.nodup_zipIdx_map_snd accesses)
  simp only [operatorArcs, List.Nodup, List.pairwise_flatMap, List.pairwise_filterMap,
    List.mem_filterMap, Option.ite_none_right_eq_some, Option.some.injEq]
  constructor
  · -- Arcs from one operator lead to different ones.
    rintro ⟨writer, i⟩ -
    refine ranks.imp ?_
    rintro ⟨reader, j⟩ ⟨reader', j'⟩ apart _ ⟨-, rfl⟩ _ ⟨-, rfl⟩ same
    exact apart (Prod.mk.inj same).2
  · refine ranks.imp ?_
    rintro ⟨writer, i⟩ ⟨writer', i'⟩ apart _ ⟨⟨reader, j⟩, -, -, rfl⟩ _ ⟨⟨reader', j'⟩, -, -, rfl⟩
      same
    exact apart (Prod.mk.inj same).1

theorem nodup_arcs (found : ofScene scene = .ok dependency) :
    dependency.operators.arcs.Nodup := by
  rw [operators_of_ofScene_eq_ok found]
  exact nodup_operatorArcs _

/-- No operator has an arc to itself. -/
theorem loopless_operators (found : ofScene scene = .ok dependency) (i : Nat) :
    (i, i) ∉ dependency.operators.arcs := by
  intro loop
  exact ((mem_arcs_iff found).mp loop).1 rfl

end Dependency

/-- The flag says that no operators of a scene go round in a circle exactly if there is an order for
them, and exactly if none are reported as feedback. An order has every operator once, and each
behind those that feed it. Two operators are reported together exactly if each feeds the other,
directly or through others. -/
theorem diagnostics_agree {α : Type u} {scene : Scene α}
    (inside : ∀ operator ∈ scene.operators, operator.Inside scene.slotCount) :
    ∃ dependency, Dependency.ofScene scene = .ok dependency ∧
      (dependency.operators.acyclic = true ↔
        ∃ order, dependency.operators.order? = some order) ∧
      (dependency.operators.acyclic = true ↔ dependency.operators.feedback = []) ∧
      (∀ order, dependency.operators.order? = some order →
        order.Perm (List.range scene.operators.length) ∧
        ∀ i j, scene.Feeds i j → order.idxOf i < order.idxOf j) ∧
      ∀ i j, i ≠ j → (dependency.operators.Together i j ↔
        Relation.TransGen scene.Feeds i j ∧ Relation.TransGen scene.Feeds j i) := by
  obtain ⟨dependency, found, -⟩ := Dependency.ofScene_eq_ok inside
  have closed := Dependency.closed_operators found
  have distinct := Dependency.nodup_arcs found
  refine ⟨dependency, found, ?flag, ?groups, ?order, ?together⟩
  case flag => exact (Digraph.exists_order?_iff_acyclic closed distinct).symm
  case groups =>
    exact Digraph.acyclic_iff_feedback_eq_nil closed (Dependency.loopless_operators found)
  case order =>
    intro order listed
    constructor
    · rw [← Dependency.size_operators found]
      exact Digraph.perm_range_of_order? closed distinct listed
    · intro i j feeds
      have arc := (Dependency.mem_arcs_iff found).mpr feeds
      exact Digraph.idxOf_lt_of_order? closed distinct listed arc
  case together =>
    intro i j apart
    rw [Digraph.Together, Digraph.shares_feedback_iff closed apart, Scene.reaches_iff found,
      Scene.reaches_iff found]

/-- Two rectangles aligned along one axis, one of them and a third along the other, and a frame
around the first. -/
def linkedAxes : Scene ℚ where
  records := [Shape.record "a" (.rect 0 0 10 10 ⟨none, none, none⟩),
    Shape.record "b" (.rect 0 0 10 10 ⟨none, none, none⟩),
    Shape.record "c" (.rect 0 0 10 10 ⟨none, none, none⟩),
    Shape.record "frame" (.background 1 ⟨none, none, none⟩)]
  operators := [.alignNear [0, 4], .alignNear [5, 9], .background 12 0 1]

/-- The two alignments have no slot in common but a rectangle, and this makes them a cycle. -/
theorem linkedAxes_cyclic :
    ∃ dependency, Dependency.ofScene linkedAxes = .ok dependency ∧
      dependency.operators.Together 0 1 ∧ dependency.operators.feedback ≠ [] ∧
      dependency.operators.acyclic = false ∧
      ¬∃ order, dependency.operators.order? = some order := by
  have inside : ∀ operator ∈ linkedAxes.operators, operator.Inside linkedAxes.slotCount := by
    decide
  obtain ⟨dependency, found, flag, groups, -, together⟩ := diagnostics_agree inside
  have out : linkedAxes.Feeds 0 1 := ⟨by decide, _, _, rfl, rfl, 4, by decide, 5, by decide, rfl⟩
  have back : linkedAxes.Feeds 1 0 := ⟨by decide, _, _, rfl, rfl, 5, by decide, 4, by decide, rfl⟩
  have pair : dependency.operators.Together 0 1 :=
    (together 0 1 (by decide)).mpr ⟨.single out, .single back⟩
  have reported : dependency.operators.feedback ≠ [] := by
    obtain ⟨group, listed, -⟩ := pair
    exact List.ne_nil_of_mem listed
  have cyclic : ¬dependency.operators.acyclic = true := fun flagged =>
    reported (groups.mp flagged)
  exact ⟨dependency, found, pair, reported, Bool.eq_false_iff.mpr cyclic,
    fun order => cyclic (flag.mpr order)⟩

end SceneLayout
