import Mathlib.Data.List.Nodup
import Mathlib.Logic.Function.Iterate
import SceneLayout.Proofs.Evaluation
import SceneLayout.Relaxation

/-!
# Relaxation as iterated passes

When all operators stay inside the buffer, relaxation never fails. The shared scratch
buffer leaves no trace: an operator moves each of its slots by the damped difference
to its own proposal on the current numbers, a pass is the composition of these moves,
and relaxation iterates passes until the residual is small or the budget is used up.

Main statement: `relax_eq_ok`.
-/

namespace SceneLayout

universe u

variable {α : Type u} [Scalar α]

open Scalar

/-- Each member is kept once. -/
theorem nodup_eraseDups {β : Type*} [BEq β] [LawfulBEq β] (items : List β) :
    items.eraseDups.Nodup := by
  induction length : items.length using Nat.strongRecOn generalizing items with
  | ind count ih =>
      cases items with
      | nil => simp
      | cons item rest =>
          rw [List.eraseDups_cons, List.nodup_cons]
          constructor
          · rw [List.mem_eraseDups, List.mem_filter]
            simp
          · have shorter : (rest.filter fun other => !other == item).length < count := by
              rw [← length, List.length_cons]
              exact Nat.lt_succ_of_le (List.length_filter_le _ _)
            exact ih _ shorter _ rfl

namespace Operator

/-- The numbers after each slot of the operator has been moved part of the way to its proposal. -/
def moved (damping : α) (numbers : Nat → α) (operator : Operator α) (slot : Nat) : α :=
  if slot ∈ operator.slots then
    numbers slot + damping * (operator.target numbers slot - numbers slot)
  else numbers slot

/-- How far the operator proposes to move each of its slots. -/
def changes (numbers : Nat → α) (operator : Operator α) : List α :=
  operator.slots.eraseDups.map fun slot => magnitude (operator.target numbers slot - numbers slot)

theorem moved_of_not_mem {operator : Operator α} {slot : Nat} (h : slot ∉ operator.slots)
    (damping : α) (numbers : Nat → α) : operator.moved damping numbers slot = numbers slot :=
  if_neg h

theorem moved_of_mem {operator : Operator α} {slot : Nat} (h : slot ∈ operator.slots)
    (damping : α) (numbers : Nat → α) :
    operator.moved damping numbers slot =
      numbers slot + damping * (operator.target numbers slot - numbers slot) :=
  if_pos h

end Operator

namespace Relaxation

/-- The numbers after one pass. -/
def pass (damping : α) (operators : List (Operator α)) (numbers : Nat → α) : Nat → α :=
  operators.foldl (Operator.moved damping) numbers

/-- All changes that are proposed in one pass. -/
def passChanges (damping : α) : List (Operator α) → (Nat → α) → List α
  | [], _ => []
  | operator :: rest, numbers =>
      operator.changes numbers ++ passChanges damping rest (operator.moved damping numbers)

/-- The largest change that is proposed in one pass. -/
def passResidual (damping : α) (operators : List (Operator α)) (numbers : Nat → α) : α :=
  greatest (nat 0) (passChanges damping operators numbers)

/-- The numbers after some passes. -/
def afterPasses (damping : α) (operators : List (Operator α)) (numbers : Nat → α) (count : Nat) :
    Nat → α :=
  (pass damping operators)^[count] numbers

/-- The residual of the last of some passes. -/
def residualAfter (damping : α) (operators : List (Operator α)) (numbers : Nat → α) :
    Nat → Option α
  | 0 => none
  | count + 1 => some (passResidual damping operators (afterPasses damping operators numbers count))

theorem afterPasses_succ (damping : α) (operators : List (Operator α)) (numbers : Nat → α)
    (count : Nat) :
    afterPasses damping operators numbers (count + 1) =
      pass damping operators (afterPasses damping operators numbers count) :=
  Function.iterate_succ_apply' _ _ _

theorem pass_append (damping : α) (before after : List (Operator α)) (numbers : Nat → α) :
    pass damping (before ++ after) numbers = pass damping after (pass damping before numbers) :=
  List.foldl_append

theorem passChanges_append (damping : α) (before after : List (Operator α)) (numbers : Nat → α) :
    passChanges damping (before ++ after) numbers =
      passChanges damping before numbers ++
        passChanges damping after (pass damping before numbers) := by
  induction before generalizing numbers with
  | nil => rfl
  | cons operator rest ih =>
      rw [List.cons_append, passChanges, passChanges, ih, List.append_assoc]
      rfl

/-- Every change of a pass is proposed by an operator on the numbers that those before it left. -/
theorem exists_of_mem_passChanges {damping : α} {operators : List (Operator α)}
    {numbers : Nat → α} {change : α} (h : change ∈ passChanges damping operators numbers) :
    ∃ (i : Nat) (operator : Operator α), operators[i]? = some operator ∧
      change ∈ operator.changes (pass damping (operators.take i) numbers) := by
  induction operators generalizing numbers with
  | nil => cases h
  | cons first rest ih =>
      rcases List.mem_append.mp h with here | later
      · exact ⟨0, first, rfl, here⟩
      · obtain ⟨i, operator, atI, among⟩ := ih later
        exact ⟨i + 1, operator, atI, among⟩

/-- Slots that no operator owns keep their numbers. -/
theorem pass_of_not_mem {operators : List (Operator α)} {slot : Nat}
    (h : ∀ operator ∈ operators, slot ∉ operator.slots) (damping : α) (numbers : Nat → α) :
    pass damping operators numbers slot = numbers slot := by
  induction operators generalizing numbers with
  | nil => rfl
  | cons operator rest ih =>
      rw [pass, List.foldl_cons]
      have later := ih (fun other member => h other (List.mem_cons_of_mem _ member))
        (operator.moved damping numbers)
      exact later.trans (Operator.moved_of_not_mem (h operator List.mem_cons_self) _ _)

theorem afterPasses_of_not_mem {operators : List (Operator α)} {slot : Nat}
    (h : ∀ operator ∈ operators, slot ∉ operator.slots) (damping : α) (numbers : Nat → α)
    (count : Nat) :
    afterPasses damping operators numbers count slot = numbers slot := by
  induction count with
  | zero => rfl
  | succ count ih => rw [afterPasses_succ, pass_of_not_mem h, ih]

theorem greatest_append (first : α) (some others : List α) :
    greatest first (some ++ others) = greatest (greatest first some) others :=
  List.foldl_append

end Relaxation

namespace Sweep

/-- Refreshing takes over the current numbers at the given slots. -/
theorem refresh_eq_ok {current scratch : Buffer α} {slots : List Nat}
    (inside : ∀ slot ∈ slots, slot < current.size) (size : scratch.size = current.size) :
    ∃ result, refresh current slots scratch = .ok result ∧ result.size = current.size ∧
      ∀ slot, result.numbers slot =
        if slot ∈ slots then current.numbers slot else scratch.numbers slot := by
  induction slots generalizing scratch with
  | nil => exact ⟨scratch, rfl, size, fun slot => by simp⟩
  | cons first rest ih =>
      have here : first < current.size := inside first (by simp)
      have inScratch : first < scratch.size := by omega
      obtain ⟨middle, wrote, size', numbers⟩ :=
        Buffer.write_eq_ok inScratch (current.numbers first)
      obtain ⟨result, others, size'', numbers'⟩ :=
        ih (fun slot member => inside slot (by simp [member])) (size'.trans size)
      refine ⟨result, ?_, size'', ?_⟩
      · rw [refresh, List.foldlM_cons, Buffer.read_eq_ok here]
        change (Buffer.write scratch first (current.numbers first) >>= _) = _
        rw [wrote]
        exact others
      · intro slot
        rw [numbers' slot, numbers]
        by_cases later : slot ∈ rest
        · simp [later]
        · by_cases same : slot = first
          · subst same
            simp [later]
          · simp [later, same]

theorem blendSlot_eq {current scratch : Buffer α} {slot : Nat} (inside : slot < current.size)
    (size : scratch.size = current.size) (damping residual : α) :
    ∃ result, blendSlot damping scratch (current, residual) slot =
        (result, greatest residual [magnitude (scratch.numbers slot - current.numbers slot)]) ∧
      result.size = current.size ∧
      result.numbers = Function.update current.numbers slot
        (current.numbers slot + damping * (scratch.numbers slot - current.numbers slot)) := by
  have old := Buffer.getElem?_eq_numbers inside
  have inScratch : slot < scratch.size := by omega
  have proposed := Buffer.getElem?_eq_numbers inScratch
  refine ⟨current.set slot
    (current.numbers slot + damping * (scratch.numbers slot - current.numbers slot)) inside,
    ?_, by simp, Buffer.numbers_set inside _⟩
  simp only [blendSlot, old, proposed, Array.setIfInBounds, inside, dif_pos]
  rfl

/-- Blending moves each of the given slots once, and looks at each of the changes. -/
theorem foldl_blendSlot_eq {current scratch : Buffer α} {slots : List Nat}
    (inside : ∀ slot ∈ slots, slot < current.size) (distinct : slots.Nodup)
    (size : scratch.size = current.size) (damping residual : α) :
    ∃ result, slots.foldl (blendSlot damping scratch) (current, residual) =
        (result, greatest residual
          (slots.map fun slot => magnitude (scratch.numbers slot - current.numbers slot))) ∧
      result.size = current.size ∧
      ∀ slot, result.numbers slot = if slot ∈ slots then
        current.numbers slot + damping * (scratch.numbers slot - current.numbers slot)
        else current.numbers slot := by
  induction slots generalizing current residual with
  | nil => exact ⟨current, rfl, rfl, fun slot => by simp⟩
  | cons first rest ih =>
      rw [List.nodup_cons] at distinct
      obtain ⟨middle, blended, size', numbers⟩ :=
        blendSlot_eq (inside first (by simp)) size damping residual
      have elsewhere : ∀ slot ∈ rest, middle.numbers slot = current.numbers slot := by
        intro slot member
        rw [numbers]
        apply Function.update_of_ne
        rintro rfl
        exact distinct.1 member
      have insideMiddle : ∀ slot ∈ rest, slot < middle.size := fun slot member => by
        rw [size']
        exact inside slot (by simp [member])
      obtain ⟨result, others, size'', numbers'⟩ := ih insideMiddle distinct.2
        (size.trans size'.symm)
        (greatest residual [magnitude (scratch.numbers first - current.numbers first)])
      refine ⟨result, ?_, size''.trans size', ?_⟩
      · rw [List.foldl_cons, blended, others, ← Relaxation.greatest_append]
        rw [List.map_congr_left fun slot member => by rw [elsewhere slot member]]
        rfl
      · intro slot
        rw [numbers' slot]
        by_cases later : slot ∈ rest
        · rw [elsewhere slot later]
          simp [later]
        · rw [numbers]
          by_cases same : slot = first
          · subst same
            simp [later]
          · simp [later, same]

/-- An operator inside the buffers moves its slots, whatever the scratch buffer held. -/
theorem apply_eq_ok {operator : Operator α} {current scratch : Buffer α}
    (inside : operator.Inside current.size) (size : scratch.size = current.size)
    (damping residual : α) :
    ∃ result next,
      Sweep.apply damping operator operator.slots.eraseDups ⟨current, scratch, residual⟩ =
        .ok ⟨result, next, greatest residual (operator.changes current.numbers)⟩ ∧
      result.size = current.size ∧ next.size = current.size ∧
      result.numbers = operator.moved damping current.numbers := by
  have insideSlots : ∀ slot ∈ operator.slots.eraseDups, slot < current.size :=
    fun slot member => inside slot (.inr (List.mem_eraseDups.mp member))
  obtain ⟨fresh, refreshed, freshSize, freshNumbers⟩ := refresh_eq_ok insideSlots size
  obtain ⟨next, evaluated, nextSize, nextNumbers⟩ := Operator.eval_eq_ok inside freshSize
  have proposal : ∀ slot ∈ operator.slots.eraseDups,
      next.numbers slot = operator.target current.numbers slot := by
    intro slot member
    rw [nextNumbers, Operator.target]
    apply written_congr
    intro _
    rw [freshNumbers slot, if_pos member]
  obtain ⟨result, blended, resultSize, resultNumbers⟩ :=
    foldl_blendSlot_eq insideSlots (nodup_eraseDups _) nextSize damping residual
  refine ⟨result, next, ?_, resultSize, nextSize, ?_⟩
  · have step : (refresh current operator.slots.eraseDups scratch >>= operator.eval current) =
        .ok next := by
      rw [refreshed]
      exact evaluated
    simp only [Sweep.apply, step, blended, Operator.changes]
    rw [List.map_congr_left fun slot member => by rw [proposal slot member]]
  · ext slot
    rw [resultNumbers slot]
    by_cases member : slot ∈ operator.slots
    · have listed := List.mem_eraseDups.mpr member
      rw [if_pos listed, proposal slot listed, Operator.moved_of_mem member]
    · have absent : slot ∉ operator.slots.eraseDups := fun listed =>
        member (List.mem_eraseDups.mp listed)
      rw [if_neg absent, Operator.moved_of_not_mem member]

/-- A pass over operators inside the buffers. -/
theorem applyAll_eq_ok {operators : List (Operator α)} {current scratch : Buffer α}
    (inside : ∀ operator ∈ operators, operator.Inside current.size)
    (size : scratch.size = current.size) (damping residual : α) :
    ∃ result next,
      applyAll damping (Relaxation.plan operators) ⟨current, scratch, residual⟩ =
        .ok ⟨result, next,
          greatest residual (Relaxation.passChanges damping operators current.numbers)⟩ ∧
      result.size = current.size ∧ next.size = current.size ∧
      result.numbers = Relaxation.pass damping operators current.numbers := by
  induction operators generalizing current scratch residual with
  | nil => exact ⟨current, scratch, rfl, rfl, size, rfl⟩
  | cons operator rest ih =>
      obtain ⟨middle, spare, applied, middleSize, spareSize, middleNumbers⟩ :=
        apply_eq_ok (inside operator (by simp)) size damping residual
      have insideMiddle : ∀ other ∈ rest, other.Inside middle.size := fun other member => by
        rw [middleSize]
        exact inside other (by simp [member])
      obtain ⟨result, next, others, resultSize, nextSize, numbers⟩ :=
        ih insideMiddle (spareSize.trans middleSize.symm)
          (greatest residual (operator.changes current.numbers))
      refine ⟨result, next, ?_, resultSize.trans middleSize, nextSize.trans middleSize, ?_⟩
      · rw [Relaxation.passChanges, Relaxation.greatest_append, ← middleNumbers]
        rw [Relaxation.plan, List.map_cons, applyAll, applied]
        exact others
      · rw [numbers, middleNumbers]
        rfl

end Sweep

namespace Relaxation

/-- How a relaxation of numbers ends after some passes. -/
def statsAfter (settings : Settings α) (operators : List (Operator α)) (numbers : Nat → α)
    (count : Nat) : Stats α :=
  let residual := residualAfter settings.damping operators numbers count
  ⟨count, residual, settings.satisfiedBy residual⟩

/-- Every pass up to a count is called for by the residual before it, and unless the limit is
reached no further one is. -/
structure StopsAfter (settings : Settings α) (operators : List (Operator α)) (numbers : Nat → α)
    (limit count : Nat) : Prop where
  within : count ≤ limit
  calledFor : ∀ k, k < count →
    settings.exceededBy (residualAfter settings.damping operators numbers k) = true
  stopped : count < limit →
    settings.exceededBy (residualAfter settings.damping operators numbers count) = false

/-- A relaxation stops only once. -/
theorem StopsAfter.unique {settings : Settings α} {operators : List (Operator α)}
    {numbers : Nat → α} {limit count otherCount : Nat}
    (stops : StopsAfter settings operators numbers limit count)
    (alsoStops : StopsAfter settings operators numbers limit otherCount) :
    count = otherCount := by
  -- A pass beyond the lower count would be both called for and not.
  have le {m n : Nat} (first : StopsAfter settings operators numbers limit m)
      (second : StopsAfter settings operators numbers limit n) : n ≤ m := by
    by_contra more
    have calledFor := second.calledFor m (Nat.lt_of_not_le more)
    have stopped := first.stopped (by have := second.within; omega)
    rw [stopped] at calledFor
    cases calledFor
  exact Nat.le_antisymm (le alsoStops stops) (le stops alsoStops)

/-- A run that has made `done` passes makes further ones until it stops. -/
theorem run_eq_ok {settings : Settings α} {operators : List (Operator α)}
    {start current scratch : Buffer α}
    (inside : ∀ operator ∈ operators, operator.Inside current.size)
    (size : scratch.size = current.size) (left : Nat) {done : Nat}
    (reached : current.numbers = afterPasses settings.damping operators start.numbers done)
    (earlier : ∀ k, k < done →
      settings.exceededBy (residualAfter settings.damping operators start.numbers k) = true) :
    ∃ count final,
      run settings (plan operators) left done
          (residualAfter settings.damping operators start.numbers done) current scratch =
        .ok (final, statsAfter settings operators start.numbers count) ∧
      final.size = current.size ∧
      final.numbers = afterPasses settings.damping operators start.numbers count ∧
      StopsAfter settings operators start.numbers (done + left) count := by
  induction left generalizing current scratch done with
  | zero =>
      refine ⟨done, current, rfl, rfl, reached, Nat.le_refl done, earlier, ?_⟩
      intro further
      exact absurd further (Nat.lt_irrefl done)
  | succ left ih =>
      cases exceeded : settings.exceededBy
          (residualAfter settings.damping operators start.numbers done) with
      | false =>
          exact ⟨done, current, run_of_not_exceeded exceeded _ _ _ _ _, rfl, reached,
            Nat.le_add_right done _, earlier, fun _ => exceeded⟩
      | true =>
          obtain ⟨middle, spare, applied, middleSize, spareSize, middleNumbers⟩ :=
            Sweep.applyAll_eq_ok inside size settings.damping (nat 0)
          have insideMiddle : ∀ operator ∈ operators, operator.Inside middle.size := by
            rw [middleSize]
            exact inside
          have reachedMiddle : middle.numbers =
              afterPasses settings.damping operators start.numbers (done + 1) := by
            rw [middleNumbers, reached, afterPasses_succ]
          have earlierMiddle : ∀ k, k < done + 1 → settings.exceededBy
              (residualAfter settings.damping operators start.numbers k) = true := by
            intro k small
            rcases Nat.lt_succ_iff_lt_or_eq.mp small with before | rfl
            · exact earlier k before
            · exact exceeded
          obtain ⟨count, final, ran, finalSize, numbers, stops⟩ :=
            ih insideMiddle (spareSize.trans middleSize.symm) reachedMiddle earlierMiddle
          refine ⟨count, final, ?_, finalSize.trans middleSize, numbers, ?_⟩
          · rw [run, exceeded, if_pos rfl, applied, reached]
            exact ran
          · rwa [Nat.add_right_comm] at stops

/-- Relaxation inside a buffer makes passes as long as the budget lasts and the residual calls for
them, and reports the number of passes and the residual of the last one. -/
theorem relax_eq_ok {operators : List (Operator α)} {buffer : Buffer α}
    (inside : ∀ operator ∈ operators, operator.Inside buffer.size) (settings : Settings α) :
    ∃ count final,
      relax settings operators buffer =
        .ok (final, statsAfter settings operators buffer.numbers count) ∧
      final.size = buffer.size ∧
      final.numbers = afterPasses settings.damping operators buffer.numbers count ∧
      StopsAfter settings operators buffer.numbers settings.budget count := by
  have none : ∀ k, k < 0 → settings.exceededBy
      (residualAfter settings.damping operators buffer.numbers k) = true :=
    fun k impossible => absurd impossible (Nat.not_lt_zero k)
  have ran := run_eq_ok inside rfl settings.budget rfl none
  rw [Nat.zero_add] at ran
  exact ran

/-- Where a relaxation stops tells its result. -/
theorem relax_eq_of_stopsAfter {settings : Settings α} {operators : List (Operator α)}
    {buffer final : Buffer α} {count : Nat}
    (inside : ∀ operator ∈ operators, operator.Inside buffer.size)
    (stops : StopsAfter settings operators buffer.numbers settings.budget count)
    (size : final.size = buffer.size)
    (reached : final.numbers = afterPasses settings.damping operators buffer.numbers count) :
    relax settings operators buffer =
      .ok (final, statsAfter settings operators buffer.numbers count) := by
  obtain ⟨other, found, ran, foundSize, foundReached, foundStops⟩ := relax_eq_ok inside settings
  obtain rfl := stops.unique foundStops
  have same : found = final :=
    Buffer.eq_of_numbers_eq (foundSize.trans size.symm) (foundReached.trans reached.symm)
  rw [ran, same]

end Relaxation

end SceneLayout
