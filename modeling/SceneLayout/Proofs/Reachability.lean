import Mathlib.Data.Finset.Card
import Mathlib.Logic.Relation
import SceneLayout.Digraph

/-!
# Reachability, cycles and feedback in finite graphs

The closed rows relate exactly the vertices of which one reaches the other along arcs.
So a graph is reported as acyclic exactly if no vertex reaches itself, and two vertices
stand in a feedback group exactly if each reaches the other.

## Implementation notes

An acyclic graph is ranked by the number of vertices that reach a vertex: along an arc
this number grows, and it stays below the number of vertices.
-/

namespace SceneLayout

namespace Digraph

variable {graph : Digraph}

/-- Every arc joins two vertices. -/
def Closed (graph : Digraph) : Prop :=
  ∀ v w, (v, w) ∈ graph.arcs → v < graph.size ∧ w < graph.size

/-- One vertex is reached from another in one step or more. -/
def Reaches (graph : Digraph) : Nat → Nat → Prop :=
  Relation.TransGen fun v w => (v, w) ∈ graph.arcs

theorem Reaches.lt_size (closed : graph.Closed) {v w : Nat} (h : graph.Reaches v w) :
    v < graph.size ∧ w < graph.size := by
  constructor
  · obtain ⟨next, arc, _⟩ := Relation.TransGen.head'_iff.mp h
    exact (closed v next arc).1
  · obtain ⟨previous, _, arc⟩ := Relation.TransGen.tail'_iff.mp h
    exact (closed previous w arc).2

theorem reaches_of_relates_foldr {pivots : List Nat} {v w : Nat}
    (h : (pivots.foldr Rows.addPivot graph.steps).relates v w = true) : graph.Reaches v w := by
  induction pivots generalizing v w with
  | nil => exact .single (relates_steps.mp h).2
  | cons pivot rest ih =>
      rw [List.foldr_cons, Rows.relates_addPivot, Bool.or_eq_true, Bool.and_eq_true] at h
      rcases h with direct | ⟨toPivot, fromPivot⟩
      · exact ih direct
      · exact (ih toPivot).trans (ih fromPivot)

/-- The closed rows hold reachability and nothing else. -/
theorem relates_closure_iff (closed : graph.Closed) {v w : Nat} :
    graph.closure.relates v w = true ↔ graph.Reaches v w := by
  constructor
  · exact reaches_of_relates_foldr
  · intro h
    induction h with
    | single arc => exact relates_closure_of_mem (closed _ _ arc).1 arc
    | tail _ arc ih =>
        have step := (closed _ _ arc).1
        exact relates_closure_trans step ih (relates_closure_of_mem step arc)

theorem acyclic_iff (closed : graph.Closed) :
    graph.acyclic = true ↔ ∀ v, ¬graph.Reaches v v := by
  simp only [acyclic, vertices, List.all_eq_true, List.mem_range, Bool.not_eq_true',
    Bool.eq_false_iff, ne_eq, relates_closure_iff closed]
  constructor
  · intro h v cycle
    exact h v (cycle.lt_size closed).1 cycle
  · intro h v _
    exact h v

/-! ## Ranks of acyclic graphs -/

/-- The vertices that reach a vertex. -/
def ancestors (graph : Digraph) (v : Nat) : Finset Nat :=
  (Finset.range graph.size).filter fun u => graph.closure.relates u v

/-- The number of vertices that reach a vertex. -/
def rank (graph : Digraph) (v : Nat) : Nat := (graph.ancestors v).card

theorem mem_ancestors (closed : graph.Closed) {u v : Nat} :
    u ∈ graph.ancestors v ↔ graph.Reaches u v := by
  rw [ancestors, Finset.mem_filter, Finset.mem_range, relates_closure_iff closed]
  constructor
  · exact And.right
  · intro h
    exact ⟨(h.lt_size closed).1, h⟩

/-- Along an arc of an acyclic graph the rank grows. -/
theorem rank_lt_rank (closed : graph.Closed) (acyclic : graph.acyclic = true) {v w : Nat}
    (arc : (v, w) ∈ graph.arcs) : graph.rank v < graph.rank w := by
  apply Finset.card_lt_card
  rw [Finset.ssubset_iff_of_subset]
  · refine ⟨v, (mem_ancestors closed).mpr (.single arc), ?_⟩
    rw [mem_ancestors closed]
    exact (acyclic_iff closed).mp acyclic v
  · intro u member
    rw [mem_ancestors closed] at member ⊢
    exact member.tail arc

theorem rank_lt_size (closed : graph.Closed) (acyclic : graph.acyclic = true) {v : Nat}
    (h : v < graph.size) : graph.rank v < graph.size := by
  have proper : graph.ancestors v ⊂ Finset.range graph.size := by
    apply (Finset.ssubset_iff_of_subset (Finset.filter_subset _ _)).mpr
    refine ⟨v, Finset.mem_range.mpr h, ?_⟩
    intro member
    exact (acyclic_iff closed).mp acyclic v ((mem_ancestors closed).mp member)
  have fewer := Finset.card_lt_card proper
  rwa [Finset.card_range] at fewer

/-! ## Feedback groups -/

/-- The same vertex, or two vertices that reach one another. -/
def Linked (graph : Digraph) (v w : Nat) : Prop :=
  v = w ∨ (graph.Reaches v w ∧ graph.Reaches w v)

theorem Linked.symm {v w : Nat} (h : graph.Linked v w) : graph.Linked w v := by
  rcases h with rfl | ⟨out, back⟩
  · exact .inl rfl
  · exact .inr ⟨back, out⟩

theorem Linked.trans {u v w : Nat} (h : graph.Linked u v) (k : graph.Linked v w) :
    graph.Linked u w := by
  rcases h with rfl | ⟨out, back⟩
  · exact k
  · rcases k with rfl | ⟨further, home⟩
    · exact .inr ⟨out, back⟩
    · exact .inr ⟨out.trans further, home.trans back⟩

theorem mem_component (closed : graph.Closed) {v w : Nat} :
    w ∈ graph.component graph.closure v ↔ w < graph.size ∧ graph.Linked v w := by
  rw [component, vertices, List.mem_filter, List.mem_range, Bool.or_eq_true, beq_iff_eq,
    Bool.and_eq_true, relates_closure_iff closed, relates_closure_iff closed, Linked,
    eq_comm (a := w)]

/-- Linked vertices have the same component. -/
theorem component_eq_of_linked (closed : graph.Closed) {v w : Nat} (h : graph.Linked v w) :
    graph.component graph.closure v = graph.component graph.closure w := by
  apply List.filter_congr
  intro u _
  rw [Bool.eq_iff_iff]
  simp only [Bool.or_eq_true, beq_iff_eq, Bool.and_eq_true, relates_closure_iff closed]
  have forward : ∀ {a b : Nat}, graph.Linked a b →
      (u = a ∨ (graph.Reaches a u ∧ graph.Reaches u a)) →
      (u = b ∨ (graph.Reaches b u ∧ graph.Reaches u b)) := by
    intro a b link member
    have linked : graph.Linked b u := link.symm.trans (member.imp Eq.symm id)
    exact linked.imp Eq.symm id
  exact ⟨forward h, forward h.symm⟩

theorem one_lt_length_of_mem {β : Type*} {items : List β} {a b : β} (distinct : a ≠ b)
    (first : a ∈ items) (second : b ∈ items) : 1 < items.length := by
  match items, first, second with
  | [], first, _ => cases first
  | [c], first, second =>
      rw [List.mem_singleton] at first second
      exact absurd (first.trans second.symm) distinct
  | _ :: _ :: rest, _, _ =>
      rw [List.length_cons, List.length_cons]
      omega

/-- Two vertices share a feedback group exactly if each reaches the other. -/
theorem shares_feedback_iff (closed : graph.Closed) {v w : Nat} (distinct : v ≠ w) :
    (∃ group ∈ graph.feedback, v ∈ group ∧ w ∈ group) ↔
      graph.Reaches v w ∧ graph.Reaches w v := by
  constructor
  · rintro ⟨group, listed, inV, inW⟩
    rw [feedback, List.mem_filterMap] at listed
    obtain ⟨u, _, chosen⟩ := listed
    rw [Option.ite_none_right_eq_some, Option.some.injEq] at chosen
    obtain ⟨_, rfl⟩ := chosen
    have toV := ((mem_component closed).mp inV).2
    have toW := ((mem_component closed).mp inW).2
    exact (toV.symm.trans toW).resolve_left distinct
  · intro h
    have inside := h.1.lt_size closed
    have link : graph.Linked v w := .inr h
    have inV : v ∈ graph.component graph.closure v :=
      (mem_component closed).mpr ⟨inside.1, .inl rfl⟩
    have inW : w ∈ graph.component graph.closure v :=
      (mem_component closed).mpr ⟨inside.2, link⟩
    have long := one_lt_length_of_mem distinct inV inW
    -- The group is listed at its first vertex.
    cases listed : graph.component graph.closure v with
    | nil =>
        rw [listed] at inV
        cases inV
    | cons first rest =>
        have head : first ∈ graph.component graph.closure v := by simp [listed]
        obtain ⟨small, linked⟩ := (mem_component closed).mp head
        have same := component_eq_of_linked closed linked
        refine ⟨graph.component graph.closure v, ?_, inV, inW⟩
        rw [feedback, List.mem_filterMap]
        refine ⟨first, List.mem_range.mpr small, ?_⟩
        rw [Option.ite_none_right_eq_some, ← same]
        exact ⟨⟨by rw [listed, List.head?_cons], long⟩, rfl⟩

end Digraph

end SceneLayout
