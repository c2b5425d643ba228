/-!
# Finite directed graphs

Reachability, cycles and orders of a graph whose vertices are the numbers below its
size.

## Implementation notes

What a vertex reaches is kept as a row of bits. The rows of the arcs are closed under
one pivot after the other: each pivot gives its row to every row that holds it. Since
every vertex is a pivot once, the closed rows hold every vertex that is reached.
-/

namespace SceneLayout

/-- A row of bits for each vertex, which tells the vertices it is related to. -/
structure Rows where
  bits : Array Nat

namespace Rows

/-- The row of a vertex. -/
def row (rows : Rows) (v : Nat) : Nat := rows.bits.getD v 0

/-- Whether a vertex is related to another one. -/
def relates (rows : Rows) (v w : Nat) : Bool := (rows.row v).testBit w

/-- Gives the row of a pivot to every row that holds the pivot. -/
def addPivot (pivot : Nat) (rows : Rows) : Rows :=
  let given := rows.row pivot
  ⟨rows.bits.map fun row => if row.testBit pivot then row ||| given else row⟩

/-- The row with the given members. -/
def rowOf (members : List Nat) : Nat := members.foldr (fun v row => row ||| 1 <<< v) 0

@[simp] theorem relates_addPivot (rows : Rows) (pivot v w : Nat) :
    (rows.addPivot pivot).relates v w =
      (rows.relates v w || (rows.relates v pivot && rows.relates pivot w)) := by
  simp only [relates, addPivot, row, Array.getD_eq_getD_getElem?, Array.getElem?_map]
  cases rows.bits[v]? with
  | none => simp
  | some row =>
      simp only [Option.map_some, Option.getD_some]
      cases h : row.testBit pivot <;> simp

theorem relates_foldr_of_relates {rows : Rows} {pivots : List Nat} {v w : Nat}
    (h : rows.relates v w = true) : (pivots.foldr addPivot rows).relates v w = true := by
  induction pivots with
  | nil => exact h
  | cons pivot rest ih =>
      rw [List.foldr_cons, relates_addPivot, ih, Bool.true_or]

theorem relates_foldr_trans {rows : Rows} {pivots : List Nat} {v pivot w : Nat}
    (member : pivot ∈ pivots) (first : (pivots.foldr addPivot rows).relates v pivot = true)
    (second : (pivots.foldr addPivot rows).relates pivot w = true) :
    (pivots.foldr addPivot rows).relates v w = true := by
  induction pivots generalizing v pivot w with
  | nil => cases member
  | cons other rest ih =>
      simp only [List.foldr_cons, relates_addPivot, Bool.or_eq_true, Bool.and_eq_true] at *
      rcases List.mem_cons.mp member with rfl | member
      · exact .inr ⟨first.elim id And.left, second.elim id And.right⟩
      · rcases first with first | ⟨toOther, fromOther⟩
        · rcases second with second | ⟨back, onward⟩
          · exact .inl (ih member first second)
          · exact .inr ⟨ih member first back, onward⟩
        · rcases second with second | ⟨_, onward⟩
          · exact .inr ⟨toOther, ih member fromOther second⟩
          · exact .inr ⟨toOther, onward⟩

@[simp] theorem testBit_rowOf (members : List Nat) (v : Nat) :
    (rowOf members).testBit v = members.contains v := by
  induction members with
  | nil => simp [rowOf]
  | cons w rest ih =>
      have step : rowOf (w :: rest) = rowOf rest ||| 1 <<< w := rfl
      rw [step, Nat.testBit_or, ih, List.contains_cons, Bool.or_comm]
      congr 1
      rw [Nat.one_shiftLeft, Nat.testBit_two_pow]
      by_cases h : w = v
      · simp [h]
      · simp [h, Ne.symm h]

end Rows

/-- A directed graph. Every arc joins two of the vertices, and no arc is listed twice. -/
structure Digraph where
  size : Nat
  arcs : List (Nat × Nat)

namespace Digraph

/-- The vertices in ascending order. -/
def vertices (graph : Digraph) : List Nat := List.range graph.size

/-- The vertices that an arc leads to, in the order of the arcs. -/
def successors (graph : Digraph) (v : Nat) : List Nat :=
  graph.arcs.filterMap fun arc => if arc.1 = v then some arc.2 else none

/-- The vertices that an arc leads from. -/
def predecessors (graph : Digraph) (v : Nat) : List Nat :=
  graph.arcs.filterMap fun arc => if arc.2 = v then some arc.1 else none

theorem mem_successors {graph : Digraph} {v w : Nat} :
    w ∈ graph.successors v ↔ (v, w) ∈ graph.arcs := by
  simp [successors]

theorem mem_predecessors {graph : Digraph} {v w : Nat} :
    w ∈ graph.predecessors v ↔ (w, v) ∈ graph.arcs := by
  simp only [predecessors, List.mem_filterMap, Option.ite_none_right_eq_some, Option.some.injEq]
  constructor
  · rintro ⟨arc, member, rfl, rfl⟩
    exact member
  · intro member
    exact ⟨_, member, rfl, rfl⟩

/-- Relates each vertex to its successors. -/
def steps (graph : Digraph) : Rows :=
  ⟨Array.ofFn fun v : Fin graph.size => Rows.rowOf (graph.successors v)⟩

/-- Relates each vertex to all that are reached from it in one step or more. -/
def closure (graph : Digraph) : Rows := graph.vertices.foldr Rows.addPivot graph.steps

theorem relates_steps {graph : Digraph} {v w : Nat} :
    graph.steps.relates v w = true ↔ v < graph.size ∧ (v, w) ∈ graph.arcs := by
  simp only [Rows.relates, Rows.row, steps, Array.getD_eq_getD_getElem?]
  by_cases h : v < graph.size
  · simp [h, mem_successors]
  · simp [h]

theorem relates_closure_of_mem {graph : Digraph} {v w : Nat} (h : v < graph.size)
    (arc : (v, w) ∈ graph.arcs) : graph.closure.relates v w = true :=
  Rows.relates_foldr_of_relates (relates_steps.mpr ⟨h, arc⟩)

theorem relates_closure_trans {graph : Digraph} {v pivot w : Nat} (h : pivot < graph.size)
    (first : graph.closure.relates v pivot = true)
    (second : graph.closure.relates pivot w = true) : graph.closure.relates v w = true :=
  Rows.relates_foldr_trans (List.mem_range.mpr h) first second

/-- No vertex reaches itself. -/
def acyclic (graph : Digraph) : Bool :=
  let closed := graph.closure
  graph.vertices.all fun v => !closed.relates v v

/-- The successors of a vertex for which it is the last predecessor to be processed. -/
def released (graph : Digraph) (processed : List Nat) (v : Nat) : List Nat :=
  (graph.successors v).filter fun w => (graph.predecessors w).all processed.contains

/-- Processes the vertices in a queue, each behind all of its predecessors. -/
def drain (graph : Digraph) : Nat → List Nat → List Nat → List Nat
  | 0, processed, _ => processed
  | _, processed, [] => processed
  | left + 1, processed, v :: queue =>
      let processed := processed ++ [v]
      drain graph left processed (queue ++ graph.released processed v)

/-- An order in which every vertex stands behind its predecessors, if there is one: first the
vertices without any, then each vertex once its last predecessor has its place. -/
def order? (graph : Digraph) : Option (List Nat) :=
  let sources := graph.vertices.filter fun v => (graph.predecessors v).isEmpty
  let order := graph.drain graph.size [] sources
  if order.length = graph.size then some order else none

/-- The vertices that reach a vertex and are reached from it, and the vertex itself. -/
def component (graph : Digraph) (closed : Rows) (v : Nat) : List Nat :=
  graph.vertices.filter fun w => w == v || (closed.relates v w && closed.relates w v)

/-- The components of more than one vertex, each in the order of the vertices and all in the order
of their first ones. -/
def feedback (graph : Digraph) : List (List Nat) :=
  let closed := graph.closure
  graph.vertices.filterMap fun v =>
    let group := graph.component closed v
    if group.head? = some v ∧ 1 < group.length then some group else none

end Digraph

end SceneLayout
