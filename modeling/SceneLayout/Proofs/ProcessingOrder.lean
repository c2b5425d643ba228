import Mathlib.Data.List.Perm.Subperm
import Mathlib.Data.List.Nodup
import SceneLayout.Proofs.Reachability

/-!
# Orders of finite graphs

A graph is processed vertex by vertex: first those without predecessors, then each one once
the last of its predecessors has been processed. The vertices that are processed or in the
queue are at all times exactly those of which no predecessor is left, so that the queue runs
dry before the vertices are used up exactly if some of them reach themselves.

## Implementation notes

A loop needs no case of its own. A vertex with an arc to itself would have to be processed
before it enters the queue, and nothing is in both.

Main statements: `exists_order?_iff_acyclic`, `perm_range_of_order?`, `idxOf_lt_of_order?`.
-/

namespace SceneLayout

namespace Digraph

variable {graph : Digraph} {processed queue order : List Nat} {v w : Nat}

/-- Part of a graph is processed, and the queue holds what can come next. -/
structure Draining (graph : Digraph) (processed queue : List Nat) : Prop where
  /-- No vertex is processed twice, queued twice, or both. -/
  nodup : (processed ++ queue).Nodup
  /-- What is processed or in the queue has no predecessor that is left. -/
  mem_iff : ∀ w, w ∈ processed ++ queue ↔
    w < graph.size ∧ ∀ v, (v, w) ∈ graph.arcs → v ∈ processed
  /-- What is processed stands behind its predecessors. -/
  idxOf_lt : ∀ v w, (v, w) ∈ graph.arcs → w ∈ processed → processed.idxOf v < processed.idxOf w

/-- No vertex has a successor twice. -/
theorem nodup_successors (distinct : graph.arcs.Nodup) : (graph.successors v).Nodup := by
  apply distinct.filterMap
  intro arc other next found found'
  rw [Option.mem_def, Option.ite_none_right_eq_some, Option.some.injEq] at found found'
  exact Prod.ext (found.1.trans found'.1.symm) (found.2.trans found'.2.symm)

/-- A vertex releases those that have it as a predecessor, and no other that is left. -/
theorem mem_released :
    w ∈ graph.released processed v ↔
      (v, w) ∈ graph.arcs ∧ ∀ u, (u, w) ∈ graph.arcs → u ∈ processed := by
  simp only [released, List.mem_filter, mem_successors, List.all_eq_true, mem_predecessors,
    List.contains_iff_mem]

namespace Draining

/-- At first the vertices without predecessors are in the queue. -/
theorem sources : graph.Draining []
    (graph.vertices.filter fun v => (graph.predecessors v).isEmpty) where
  nodup := List.nodup_range.filter _
  mem_iff w := by
    simp [vertices, List.eq_nil_iff_forall_not_mem, mem_predecessors]
  idxOf_lt := by simp

/-- A vertex from the queue is processed, and those that it releases are put behind the others. -/
theorem step (closed : graph.Closed) (distinct : graph.arcs.Nodup)
    (draining : graph.Draining processed (v :: queue)) :
    graph.Draining (processed ++ [v]) (queue ++ graph.released (processed ++ [v]) v) := by
  have inQueue : v ∈ processed ++ v :: queue := by simp
  have ready : ∀ u, (u, v) ∈ graph.arcs → u ∈ processed := ((draining.mem_iff v).mp inQueue).2
  have split : processed ++ [v] ++ queue = processed ++ v :: queue := by simp
  have fresh : v ∉ processed := by
    intro member
    exact List.disjoint_of_nodup_append draining.nodup member List.mem_cons_self
  refine ⟨?nodup, ?mem_iff, ?idxOf_lt⟩
  case nodup =>
    rw [← List.append_assoc, split]
    refine draining.nodup.append ((nodup_successors distinct).filter _) ?_
    -- What was there before had no predecessor left, so that it is not `v`.
    intro w before released
    exact fresh (((draining.mem_iff w).mp before).2 v (mem_released.mp released).1)
  case mem_iff =>
    intro w
    rw [← List.append_assoc, split, List.mem_append, draining.mem_iff, mem_released]
    constructor
    · rintro (⟨inside, before⟩ | ⟨arc, all⟩)
      · exact ⟨inside, fun u arc => List.mem_append_left _ (before u arc)⟩
      · exact ⟨(closed v w arc).2, all⟩
    · rintro ⟨inside, all⟩
      by_cases arc : (v, w) ∈ graph.arcs
      · exact .inr ⟨arc, all⟩
      · refine .inl ⟨inside, fun u other => ?_⟩
        rcases List.mem_append.mp (all u other) with before | last
        · exact before
        · cases List.mem_singleton.mp last
          exact absurd other arc
  case idxOf_lt =>
    intro u w arc member
    rcases List.mem_append.mp member with before | last
    · have earlier : u ∈ processed :=
        ((draining.mem_iff w).mp (List.mem_append_left _ before)).2 u arc
      rw [List.idxOf_append_of_mem earlier, List.idxOf_append_of_mem before]
      exact draining.idxOf_lt u w arc before
    · cases List.mem_singleton.mp last
      have earlier : u ∈ processed := ready u arc
      rw [List.idxOf_append_of_mem earlier, List.idxOf_append_of_notMem fresh]
      exact Nat.lt_add_right _ (List.idxOf_lt_length_of_mem earlier)

/-- The queue is processed until nothing is left in it or the fuel is used up. -/
theorem run (closed : graph.Closed) (distinct : graph.arcs.Nodup) (left : Nat)
    (draining : graph.Draining processed queue) :
    ∃ rest, graph.Draining (graph.drain left processed queue) rest ∧
      (rest = [] ∨ (graph.drain left processed queue).length = processed.length + left) := by
  induction left generalizing processed queue with
  | zero => exact ⟨queue, draining, .inr rfl⟩
  | succ left ih =>
      cases queue with
      | nil => exact ⟨[], draining, .inl rfl⟩
      | cons v queue =>
          obtain ⟨rest, done, ended⟩ := ih (draining.step closed distinct)
          refine ⟨rest, done, ended.imp id fun long => ?_⟩
          rw [drain, long, List.length_append, List.length_singleton]
          omega

/-- What is processed is a part of the vertices. -/
theorem subperm_vertices (draining : graph.Draining processed queue) :
    processed.Subperm graph.vertices := by
  refine (List.nodup_append.mp draining.nodup).1.subperm fun w member => ?_
  exact List.mem_range.mpr ((draining.mem_iff w).mp (List.mem_append_left _ member)).1

/-- As many processed vertices as there are in the graph are all of them. -/
theorem perm_vertices (draining : graph.Draining processed queue)
    (full : processed.length = graph.size) : processed.Perm graph.vertices := by
  apply draining.subperm_vertices.perm_of_length_le
  rw [vertices, List.length_range, full]

/-- In an acyclic graph the queue is empty only after all vertices have been processed. -/
theorem length_eq_size (closed : graph.Closed) (acyclic : graph.acyclic = true)
    (draining : graph.Draining processed []) : processed.length = graph.size := by
  -- The induction is on the rank, which the predecessors of a vertex have less of.
  have all : ∀ w, w < graph.size → w ∈ processed := by
    intro w
    induction w using (measure graph.rank).wf.induction with
    | h w ih =>
        intro inside
        rw [← List.append_nil processed, draining.mem_iff]
        refine ⟨inside, fun v arc => ?_⟩
        exact ih v (rank_lt_rank closed acyclic arc) (closed v w arc).1
  have covered : graph.vertices.Subperm processed :=
    List.nodup_range.subperm fun w member => all w (List.mem_range.mp member)
  have same : processed.length = graph.vertices.length :=
    le_antisymm draining.subperm_vertices.length_le covered.length_le
  rwa [vertices, List.length_range] at same

end Draining

/-- An order is what is processed, if that is as much as the graph has. -/
theorem order?_eq_some (closed : graph.Closed) (distinct : graph.arcs.Nodup)
    (found : graph.order? = some order) :
    order.length = graph.size ∧ ∃ rest, graph.Draining order rest := by
  rw [order?, Option.ite_none_right_eq_some, Option.some.injEq] at found
  obtain ⟨full, rfl⟩ := found
  obtain ⟨rest, done, _⟩ := Draining.sources.run closed distinct graph.size
  exact ⟨full, rest, done⟩

/-- An order has every vertex, and each of them once. -/
theorem perm_range_of_order? (closed : graph.Closed) (distinct : graph.arcs.Nodup)
    (found : graph.order? = some order) : order.Perm (List.range graph.size) := by
  obtain ⟨full, rest, done⟩ := order?_eq_some closed distinct found
  exact done.perm_vertices full

/-- In an order every vertex stands behind its predecessors. -/
theorem idxOf_lt_of_order? (closed : graph.Closed) (distinct : graph.arcs.Nodup)
    (found : graph.order? = some order) (arc : (v, w) ∈ graph.arcs) :
    order.idxOf v < order.idxOf w := by
  obtain ⟨full, rest, done⟩ := order?_eq_some closed distinct found
  have member : w ∈ order :=
    (done.perm_vertices full).mem_iff.mpr (List.mem_range.mpr (closed v w arc).2)
  exact done.idxOf_lt v w arc member

/-- A graph has an order exactly if no vertex of it reaches itself. -/
theorem exists_order?_iff_acyclic (closed : graph.Closed) (distinct : graph.arcs.Nodup) :
    (∃ order, graph.order? = some order) ↔ graph.acyclic = true := by
  constructor
  · rintro ⟨order, found⟩
    rw [acyclic_iff closed]
    intro v cycle
    have ahead : ∀ w, graph.Reaches v w → order.idxOf v < order.idxOf w := by
      intro w reached
      induction reached with
      | single arc => exact idxOf_lt_of_order? closed distinct found arc
      | tail _ arc ih => exact ih.trans (idxOf_lt_of_order? closed distinct found arc)
    exact Nat.lt_irrefl _ (ahead v cycle)
  · intro acyclic
    obtain ⟨rest, done, ended⟩ := Draining.sources.run closed distinct graph.size
    have full : (graph.drain graph.size []
        (graph.vertices.filter fun v => (graph.predecessors v).isEmpty)).length = graph.size := by
      rcases ended with rfl | long
      · exact done.length_eq_size closed acyclic
      · rw [long, List.length_nil, Nat.zero_add]
    exact ⟨_, if_pos full⟩

end Digraph

end SceneLayout
