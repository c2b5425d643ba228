import SceneLayout.Proofs.OperatorGraph
import SceneLayout.Proofs.Placement

/-!
# Acyclic scenes settle

With full damping every slot holds what its operator proposed last. When no slot has two
operators and the graph of operators has no cycle, slots settle along that graph: the
extents that an operator of rank `r` sets settle after `r + 1` passes, since they depend
on extents that others set only, and its positions after one more pass, since a stack
reads its own extent across and an aligning operator its own positions.

Main statement: `relax_settles_of_acyclic`.

## Implementation notes

Operators are known by their place in the list, since a scene may have equal ones.
-/

namespace SceneLayout

open Scalar

/-- No slot has two operators. -/
def Exclusive {α : Type*} (operators : List (Operator α)) : Prop :=
  operators.Pairwise fun first second => first.slots.Disjoint second.slots

theorem Exclusive.eq_of_mem_slots {α : Type*} {operators : List (Operator α)}
    (exclusive : Exclusive operators) {i j : Nat} {first second : Operator α}
    (atI : operators[i]? = some first) (atJ : operators[j]? = some second) {slot : Nat}
    (inFirst : slot ∈ first.slots) (inSecond : slot ∈ second.slots) : i = j := by
  obtain ⟨smallI, rfl⟩ := List.getElem?_eq_some_iff.mp atI
  obtain ⟨smallJ, rfl⟩ := List.getElem?_eq_some_iff.mp atJ
  have apart := List.pairwise_iff_getElem.mp exclusive
  rcases Nat.lt_trichotomy i j with before | same | after
  · exact absurd inSecond (apart i j smallI smallJ before inFirst)
  · exact same
  · exact absurd inFirst (apart j i smallJ smallI after inSecond)

namespace Relaxation

variable {operators : List (Operator ℚ)} {numbers : Nat → ℚ}

/-- The numbers on which the operator at a place is evaluated, after some full passes. -/
def before (operators : List (Operator ℚ)) (numbers : Nat → ℚ) (count i : Nat) : Nat → ℚ :=
  pass 1 (operators.take i) (afterPasses 1 operators numbers count)

/-- The slot holds the same number after every number of passes from some on. -/
def SettledFrom (operators : List (Operator ℚ)) (numbers : Nat → ℚ) (count slot : Nat) : Prop :=
  ∀ later, count ≤ later →
    afterPasses 1 operators numbers later slot = afterPasses 1 operators numbers count slot

theorem SettledFrom.mono {count later slot : Nat}
    (h : SettledFrom operators numbers count slot) (le : count ≤ later) :
    SettledFrom operators numbers later slot := by
  intro further more
  rw [h further (le.trans more), h later le]

/-- It is enough that a slot keeps its number in every pass. -/
theorem settledFrom_of_succ {count slot : Nat}
    (h : ∀ later, count ≤ later → afterPasses 1 operators numbers (later + 1) slot =
      afterPasses 1 operators numbers later slot) :
    SettledFrom operators numbers count slot := by
  intro later le
  induction later, le using Nat.le_induction with
  | base => rfl
  | succ later le ih => rw [h later le, ih]

theorem settledFrom_of_not_mem {slot : Nat}
    (h : ∀ operator ∈ operators, slot ∉ operator.slots) (count : Nat) :
    SettledFrom operators numbers count slot := by
  apply settledFrom_of_succ
  intro later _
  rw [afterPasses_succ]
  exact pass_of_not_mem h 1 _

theorem eq_take_append_drop {α : Type*} {items : List α} {i : Nat} {item : α}
    (h : items[i]? = some item) : items = items.take i ++ item :: items.drop (i + 1) := by
  obtain ⟨small, rfl⟩ := List.getElem?_eq_some_iff.mp h
  rw [List.getElem_cons_drop, List.take_append_drop]

theorem exists_lt_of_mem_take {α : Type*} {items : List α} {i : Nat} {item : α}
    (h : item ∈ items.take i) : ∃ j < i, items[j]? = some item := by
  obtain ⟨j, atJ⟩ := List.mem_iff_getElem?.mp h
  have small := (List.getElem?_eq_some_iff.mp atJ).1
  rw [List.length_take] at small
  have early : j < i := by omega
  rw [List.getElem?_take_of_lt early] at atJ
  exact ⟨j, early, atJ⟩

theorem exists_le_of_mem_drop {α : Type*} {items : List α} {i : Nat} {item : α}
    (h : item ∈ items.drop i) : ∃ j, i ≤ j ∧ items[j]? = some item := by
  obtain ⟨j, atJ⟩ := List.mem_iff_getElem?.mp h
  rw [List.getElem?_drop] at atJ
  exact ⟨i + j, Nat.le_add_right i j, atJ⟩

/-- A full pass, seen from the operator at a place. -/
theorem pass_one_of_getElem? {i : Nat} {operator : Operator ℚ}
    (h : operators[i]? = some operator) (numbers : Nat → ℚ) :
    pass 1 operators numbers = pass 1 (operators.drop (i + 1))
      (operator.target (pass 1 (operators.take i) numbers)) := by
  calc
    pass 1 operators numbers
        = pass 1 (operators.take i ++ operator :: operators.drop (i + 1)) numbers :=
          congrArg (fun operators => pass 1 operators numbers) (eq_take_append_drop h)
    _ = pass 1 (operators.drop (i + 1))
          (operator.target (pass 1 (operators.take i) numbers)) := by
        rw [pass_append, ← Operator.moved_one]
        rfl

section Exclusive

variable (exclusive : Exclusive operators)
include exclusive

/-- An operator finds in its own slots what the pass before left there. -/
theorem before_of_mem {i : Nat} {operator : Operator ℚ} (atI : operators[i]? = some operator)
    {slot : Nat} (own : slot ∈ operator.slots) (count : Nat) :
    before operators numbers count i slot = afterPasses 1 operators numbers count slot := by
  apply pass_of_not_mem
  intro other member shared
  obtain ⟨j, early, atJ⟩ := exists_lt_of_mem_take member
  have same := exclusive.eq_of_mem_slots atI atJ own shared
  omega

/-- After a pass every slot holds what its operator proposed. -/
theorem afterPasses_succ_of_mem {i : Nat} {operator : Operator ℚ}
    (atI : operators[i]? = some operator) {slot : Nat} (own : slot ∈ operator.slots)
    (count : Nat) :
    afterPasses 1 operators numbers (count + 1) slot =
      operator.target (before operators numbers count i) slot := by
  rw [afterPasses_succ, pass_one_of_getElem? atI]
  apply pass_of_not_mem
  intro other member shared
  obtain ⟨j, late, atJ⟩ := exists_le_of_mem_drop member
  have same := exclusive.eq_of_mem_slots atI atJ own shared
  omega

/-- Every other slot holds what it holds before the pass or what it holds after it. -/
theorem before_eq_or (count i slot : Nat) :
    before operators numbers count i slot = afterPasses 1 operators numbers count slot ∨
      before operators numbers count i slot =
        afterPasses 1 operators numbers (count + 1) slot := by
  by_cases early : ∃ operator ∈ operators.take i, slot ∈ operator.slots
  · right
    obtain ⟨operator, member, own⟩ := early
    obtain ⟨j, lt, atJ⟩ := exists_lt_of_mem_take member
    have later : ∀ other ∈ operators.drop i, slot ∉ other.slots := by
      intro other listed shared
      obtain ⟨k, le, atK⟩ := exists_le_of_mem_drop listed
      have same := exclusive.eq_of_mem_slots atJ atK own shared
      omega
    calc
      before operators numbers count i slot
          = pass 1 (operators.drop i) (before operators numbers count i) slot :=
            (pass_of_not_mem later 1 _).symm
      _ = afterPasses 1 operators numbers (count + 1) slot := by
          rw [before, ← pass_append, List.take_append_drop, afterPasses_succ]
  · left
    apply pass_of_not_mem
    intro other member shared
    exact early ⟨other, member, shared⟩

/-- An operator finds a settled number wherever one is. -/
theorem SettledFrom.before_eq {count later slot : Nat}
    (h : SettledFrom operators numbers count slot) (le : count ≤ later) (i : Nat) :
    before operators numbers later i slot = afterPasses 1 operators numbers count slot := by
  rcases before_eq_or exclusive later i slot with unchanged | changed
  · rw [unchanged, h later le]
  · rw [changed, h (later + 1) (le.trans (Nat.le_succ later))]

end Exclusive

end Relaxation

/-! ## Settling along the graph -/

namespace Scene

variable {scene : Scene ℚ} {numbers : Nat → ℚ} {rank : Nat → Nat}

/-- The operators of the scene keep to distinct entities and to slots of their own. -/
structure WellPlaced (scene : Scene ℚ) : Prop where
  onEntities : ∀ operator ∈ scene.operators, operator.OnEntities
  distinct : ∀ operator ∈ scene.operators, operator.DistinctEntries
  exclusive : Exclusive scene.operators

/-- What an operator reads and does not own belongs to an operator that feeds it, or to none. -/
theorem feeds_of_mem_reads {i j : Nat} {writer reader : Operator ℚ}
    (atI : scene.operators[i]? = some writer) (atJ : scene.operators[j]? = some reader)
    {slot : Nat} (written : slot ∈ writer.slots) (read : slot ∈ reader.reads)
    (foreign : slot ∉ reader.slots) : scene.Feeds i j := by
  have distinct : i ≠ j := by
    rintro rfl
    rw [atI] at atJ
    cases atJ
    exact foreign written
  exact ⟨distinct, writer, reader, atI, atJ, slot, written, slot, read, rfl⟩

open Relaxation

/-- If everything that feeds an operator is settled, then so is what it reads of others. -/
theorem settledFrom_of_foreign {count i : Nat} {operator : Operator ℚ}
    (atI : scene.operators[i]? = some operator) {slot : Nat} (read : slot ∈ operator.reads)
    (foreign : slot ∉ operator.slots)
    (earlier : ∀ j other, scene.operators[j]? = some other → scene.Feeds j i →
      slot ∈ other.slots → SettledFrom scene.operators numbers count slot) :
    SettledFrom scene.operators numbers count slot := by
  by_cases owned : ∃ other ∈ scene.operators, slot ∈ other.slots
  · obtain ⟨other, member, written⟩ := owned
    obtain ⟨j, atJ⟩ := List.mem_iff_getElem?.mp member
    exact earlier j other atJ (feeds_of_mem_reads atJ atI written read foreign) written
  · exact settledFrom_of_not_mem (fun other member written => owned ⟨other, member, written⟩) count

/-- The extents that an operator sets settle one pass after those that feed it. -/
theorem extent_settledFrom (placed : scene.WellPlaced)
    (grows : ∀ i j, scene.Feeds i j → rank i < rank j) {i : Nat} {operator : Operator ℚ}
    (atI : scene.operators[i]? = some operator) {slot : Nat} (own : slot ∈ operator.slots)
    (extent : IsExtent slot) : SettledFrom scene.operators numbers (rank i + 1) slot := by
  induction height : rank i using Nat.strongRecOn generalizing i operator slot with
  | ind r ih =>
      have member := List.mem_of_getElem? atI
      have inputs : ∀ slot ∈ operator.reads, IsExtent slot → slot ∉ operator.slots →
          SettledFrom scene.operators numbers r slot := by
        intro slot read extent foreign
        apply settledFrom_of_foreign atI read foreign
        intro j other atJ feeds written
        have lower := grows j i feeds
        have settled := ih (rank j) (height ▸ lower) atJ written extent rfl
        exact settled.mono (by omega)
      apply settledFrom_of_succ
      intro later le
      obtain ⟨previous, rfl⟩ : ∃ previous, later = previous + 1 := ⟨later - 1, by omega⟩
      have since : r ≤ previous := by omega
      rw [afterPasses_succ_of_mem placed.exclusive atI own,
        afterPasses_succ_of_mem placed.exclusive atI own]
      apply Operator.target_extent_congr (placed.onEntities operator member)
        (placed.distinct operator member) _ own extent
      intro slot read extent foreign
      have settled := inputs slot read extent foreign
      rw [settled.before_eq placed.exclusive (since.trans (Nat.le_succ previous)),
        settled.before_eq placed.exclusive since]

/-- All slots of an operator settle one pass after its extents. -/
theorem slot_settledFrom (placed : scene.WellPlaced)
    (grows : ∀ i j, scene.Feeds i j → rank i < rank j) {i : Nat} {operator : Operator ℚ}
    (atI : scene.operators[i]? = some operator) {slot : Nat} (own : slot ∈ operator.slots) :
    SettledFrom scene.operators numbers (rank i + 2) slot := by
  induction height : rank i using Nat.strongRecOn generalizing i operator slot with
  | ind r ih =>
      have member := List.mem_of_getElem? atI
      have inputs : ∀ slot ∈ operator.reads, IsExtent slot ∨ slot ∉ operator.slots →
          SettledFrom scene.operators numbers (r + 1) slot := by
        intro slot read kept
        by_cases foreign : slot ∉ operator.slots
        · apply settledFrom_of_foreign atI read foreign
          intro j other atJ feeds written
          have lower := grows j i feeds
          have settled := ih (rank j) (height ▸ lower) atJ written rfl
          exact settled.mono (by omega)
        · have extent := kept.resolve_right foreign
          exact height ▸ extent_settledFrom placed grows atI (not_not.mp foreign) extent
      apply settledFrom_of_succ
      intro later le
      obtain ⟨previous, rfl⟩ : ∃ previous, later = previous + 1 := ⟨later - 1, by omega⟩
      have since : r + 1 ≤ previous := by omega
      rw [afterPasses_succ_of_mem placed.exclusive atI own,
        afterPasses_succ_of_mem placed.exclusive atI own]
      apply Operator.target_again (placed.onEntities operator member)
        (placed.distinct operator member) _ _ own
      · intro slot own
        rw [before_of_mem placed.exclusive atI own,
          afterPasses_succ_of_mem placed.exclusive atI own]
      · intro slot read kept
        have settled := inputs slot read kept
        rw [settled.before_eq placed.exclusive (since.trans (Nat.le_succ previous)),
          settled.before_eq placed.exclusive since]

/-- Once every slot has settled, no change is proposed. -/
theorem passResidual_eq_zero (exclusive : Exclusive scene.operators) {count : Nat}
    (settled : ∀ slot, SettledFrom scene.operators numbers count slot) :
    passResidual 1 scene.operators (afterPasses 1 scene.operators numbers count) = 0 := by
  apply le_antisymm _ passResidual_nonneg
  rw [passResidual_le_iff]
  refine ⟨le_rfl, ?_⟩
  intro change listed
  obtain ⟨i, operator, atI, among⟩ := exists_of_mem_passChanges listed
  refine Operator.forall_changes_le_iff.mpr ?_ change among
  intro slot own
  have proposed : afterPasses 1 scene.operators numbers (count + 1) slot = _ :=
    afterPasses_succ_of_mem exclusive atI own count
  have present : before scene.operators numbers count i slot = _ :=
    before_of_mem exclusive atI own count
  rw [before] at proposed present
  rw [← proposed, present, settled slot (count + 1) (Nat.le_succ count), sub_self, abs_zero]

/-- In an acyclic graph of `m` operators all slots are settled after `m + 1` passes. -/
theorem settledFrom_length (placed : scene.WellPlaced) {dependency : Dependency}
    (found : Dependency.ofScene scene = .ok dependency)
    (acyclic : dependency.operators.acyclic = true) (slot : Nat) :
    SettledFrom scene.operators numbers (scene.operators.length + 1) slot := by
  have closed := Dependency.closed_operators found
  have grows : ∀ i j, scene.Feeds i j →
      dependency.operators.rank i < dependency.operators.rank j := by
    intro i j feeds
    exact Digraph.rank_lt_rank closed acyclic ((Dependency.mem_arcs_iff found).mpr feeds)
  by_cases owned : ∃ operator ∈ scene.operators, slot ∈ operator.slots
  · obtain ⟨operator, member, own⟩ := owned
    obtain ⟨i, atI⟩ := List.mem_iff_getElem?.mp member
    have inside : i < dependency.operators.size := by
      rw [Dependency.size_operators found]
      exact (List.getElem?_eq_some_iff.mp atI).1
    have low := Digraph.rank_lt_size closed acyclic inside
    rw [Dependency.size_operators found] at low
    exact (slot_settledFrom placed grows atI own).mono (by omega)
  · exact settledFrom_of_not_mem (fun operator member own => owned ⟨operator, member, own⟩) _

/-- A scene of `m` well placed operators whose graph has no cycle comes to rest within `m + 2` full
passes, whatever the order of the operators and the numbers at the start. No operator then changes
the buffer. -/
theorem relax_settles_of_acyclic (placed : scene.WellPlaced) {dependency : Dependency}
    (found : Dependency.ofScene scene = .ok dependency)
    (acyclic : dependency.operators.acyclic = true) {budget : Nat}
    (enough : scene.operators.length + 2 ≤ budget) {buffer : Buffer ℚ}
    (room : scene.slotCount ≤ buffer.size) :
    ∃ final stats, relax ⟨budget, 0, 1⟩ scene.operators buffer = .ok (final, stats) ∧
      stats.converged = true ∧ stats.residual = some 0 ∧
      stats.passes ≤ scene.operators.length + 2 ∧
      final.size = buffer.size ∧
      ∀ operator ∈ scene.operators, operator.eval final final = .ok final := by
  have inside : ∀ operator ∈ scene.operators, operator.Inside buffer.size := by
    intro operator member slot used
    exact (Dependency.inside_of_ofScene_eq_ok found operator member slot used).trans_le room
  have rest : residualAfter 1 scene.operators buffer.numbers (scene.operators.length + 2) =
      some 0 := by
    rw [residualAfter, passResidual_eq_zero placed.exclusive]
    exact settledFrom_length placed found acyclic
  obtain ⟨final, stats, ran, converged, residual, few, size, -, still⟩ :=
    relax_comes_to_rest inside rest enough
  exact ⟨final, stats, ran, converged, residual, few, size, still⟩

/-- A box around a stack of two rectangles; the box is looked at before the stack that feeds it. -/
def boxedStack : Scene ℚ where
  records := ["box", "stack", "first", "second"].map fun id => Record.empty id .rect
  operators := [.background 4 0 3, .stack .y [8, 12] 4 2 .center]

theorem wellPlaced_boxedStack : boxedStack.WellPlaced where
  onEntities := by
    have multiples : ∀ base ∈ [4, 0] ++ [4, 8, 12], base = baseOf (base / 4) := by decide
    intro operator member
    simp only [boxedStack, List.mem_cons, List.not_mem_nil, or_false] at member
    rcases member with rfl | rfl
    · intro base listed
      exact ⟨base / 4, multiples base (List.mem_append_left _ listed)⟩
    · intro base listed
      exact ⟨base / 4, multiples base (List.mem_append_right _ listed)⟩
  distinct := by
    intro operator member
    simp only [boxedStack, List.mem_cons, List.not_mem_nil, or_false] at member
    rcases member with rfl | rfl
    · exact (by decide : 4 ≠ 0)
    · exact (by decide : [4, 8, 12].Nodup)
  exclusive := by
    simp [Exclusive, boxedStack, Operator.slots, Axis.position, Axis.cross, Axis.extent]

/-- Four passes are enough for it. Neither the stack nor the box then changes a number. -/
theorem relax_settles_boxedStack :
    ∃ final stats, relax ⟨4, 0, 1⟩ boxedStack.operators
        #[9, 8, 7, 6, 5, 4, 3, 2, 1, 0, 10, 20, 3, 1, 4, 1] = .ok (final, stats) ∧
      stats.converged = true ∧ stats.residual = some 0 ∧ stats.passes ≤ 4 ∧
      final.size = 16 ∧
      (Operator.background 4 0 3).eval final final = .ok final ∧
      (Operator.stack .y [8, 12] 4 2 .center).eval final final = .ok final := by
  have inside : ∀ operator ∈ boxedStack.operators, operator.Inside boxedStack.slotCount := by
    decide
  obtain ⟨dependency, found, operators⟩ := Dependency.ofScene_eq_ok inside
  have acyclic : dependency.operators.acyclic = true := by
    rw [operators]
    decide +kernel
  have room : boxedStack.slotCount ≤
      (#[9, 8, 7, 6, 5, 4, 3, 2, 1, 0, 10, 20, 3, 1, 4, 1] : Buffer ℚ).size := le_rfl
  obtain ⟨final, stats, ran, converged, residual, few, size, still⟩ :=
    relax_settles_of_acyclic wellPlaced_boxedStack found acyclic le_rfl room
  exact ⟨final, stats, ran, converged, residual, few, size, still _ List.mem_cons_self,
    still _ (List.mem_cons_of_mem _ List.mem_cons_self)⟩

end Scene

end SceneLayout
