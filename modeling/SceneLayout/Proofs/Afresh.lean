import SceneLayout.Proofs.Exact

/-!
# Relaxation on fresh copies

Relaxation said plainly, with nothing shared: every operator of every pass is evaluated
into a copy of the buffer that is made for it alone, each of its distinct slots is then
moved once, and the residual of a pass is its largest change. The loop with the one
scratch buffer ends in the same buffer with the same statistics, whatever the scratch
buffer held at the start.

Main statement: `relax_eq_afresh`.

## Implementation notes

No law of arithmetic is used. Both loops are compared pass by pass: a pass of either kind
is the same function of the numbers that it finds.
-/

namespace SceneLayout

universe u

variable {α : Type u} [Scalar α]

open Scalar

namespace Afresh

/-- Moves one slot by the damped difference to what the copy holds there, and notes the
difference. -/
def blendSlot (damping : α) (copy : Buffer α) :
    Buffer α × List α → Nat → Except SlotError (Buffer α × List α)
  | (buffer, differences), slot => do
      let old ← Buffer.read buffer slot
      let proposed ← Buffer.read copy slot
      let difference := proposed - old
      let buffer ← Buffer.write buffer slot (old + damping * difference)
      return (buffer, differences ++ [difference])

/-- Evaluates an operator into a new copy of the buffer and blends each of its distinct slots once,
in the order of first occurrence. -/
def step (damping : α) (operator : Operator α) (buffer : Buffer α) :
    Except SlotError (Buffer α × List α) := do
  let copy ← operator.eval buffer buffer
  operator.slots.eraseDups.foldlM (blendSlot damping copy) (buffer, [])

/-- One pass over the operators, and all differences that were met in it. -/
def pass (damping : α) : List (Operator α) → Buffer α → Except SlotError (Buffer α × List α)
  | [], buffer => return (buffer, [])
  | operator :: rest, buffer => do
      let (buffer, differences) ← step damping operator buffer
      let (buffer, others) ← pass damping rest buffer
      return (buffer, differences ++ others)

/-- The largest of some differences, without their signs. -/
def largest (differences : List α) : α := greatest (nat 0) (differences.map magnitude)

/-- Makes passes while the residual calls for one and some of the budget is left. -/
def run (settings : Settings α) (operators : List (Operator α)) :
    Nat → Nat → Option α → Buffer α → Except SlotError (Buffer α × Stats α)
  | 0, passes, residual, buffer =>
      return (buffer, ⟨passes, residual, settings.satisfiedBy residual⟩)
  | left + 1, passes, residual, buffer =>
      if settings.exceededBy residual then do
        let (buffer, differences) ← pass settings.damping operators buffer
        run settings operators left (passes + 1) (some (largest differences)) buffer
      else return (buffer, ⟨passes, residual, settings.satisfiedBy residual⟩)

/-- Relaxes a buffer with a new copy for every evaluation. -/
def relax (settings : Settings α) (operators : List (Operator α)) (buffer : Buffer α) :
    Except SlotError (Buffer α × Stats α) :=
  run settings operators settings.budget 0 none buffer

/-! ## A pass on fresh copies -/

theorem blendSlot_eq_ok {buffer copy : Buffer α} {slot : Nat} (inside : slot < buffer.size)
    (size : copy.size = buffer.size) (damping : α) (differences : List α) :
    ∃ result, blendSlot damping copy (buffer, differences) slot =
        .ok (result, differences ++ [copy.numbers slot - buffer.numbers slot]) ∧
      result.size = buffer.size ∧
      result.numbers = Function.update buffer.numbers slot
        (buffer.numbers slot + damping * (copy.numbers slot - buffer.numbers slot)) := by
  have inCopy : slot < copy.size := by omega
  obtain ⟨result, wrote, resultSize, numbers⟩ := Buffer.write_eq_ok inside
    (buffer.numbers slot + damping * (copy.numbers slot - buffer.numbers slot))
  refine ⟨result, ?_, resultSize, numbers⟩
  rw [blendSlot, Buffer.read_eq_ok inside, Buffer.read_eq_ok inCopy]
  change (Buffer.write buffer slot _ >>= _) = _
  rw [wrote]
  rfl

/-- Blending distinct slots moves each of them from where it was at the start. -/
theorem foldlM_blendSlot_eq_ok {buffer copy : Buffer α} {slots : List Nat}
    (inside : ∀ slot ∈ slots, slot < buffer.size) (distinct : slots.Nodup)
    (size : copy.size = buffer.size) (damping : α) (differences : List α) :
    ∃ result, slots.foldlM (blendSlot damping copy) (buffer, differences) =
        .ok (result, differences ++
          slots.map fun slot => copy.numbers slot - buffer.numbers slot) ∧
      result.size = buffer.size ∧
      ∀ slot, result.numbers slot = if slot ∈ slots then
        buffer.numbers slot + damping * (copy.numbers slot - buffer.numbers slot)
        else buffer.numbers slot := by
  induction slots generalizing buffer differences with
  | nil => exact ⟨buffer, by simp; rfl, rfl, fun slot => by simp⟩
  | cons first rest ih =>
      rw [List.nodup_cons] at distinct
      obtain ⟨middle, blended, middleSize, middleNumbers⟩ :=
        blendSlot_eq_ok (inside first (by simp)) size damping differences
      have elsewhere : ∀ slot ∈ rest, middle.numbers slot = buffer.numbers slot := by
        intro slot member
        rw [middleNumbers]
        apply Function.update_of_ne
        rintro rfl
        exact distinct.1 member
      have insideMiddle : ∀ slot ∈ rest, slot < middle.size := fun slot member => by
        rw [middleSize]
        exact inside slot (by simp [member])
      obtain ⟨result, others, resultSize, resultNumbers⟩ := ih insideMiddle distinct.2
        (size.trans middleSize.symm)
        (differences ++ [copy.numbers first - buffer.numbers first])
      refine ⟨result, ?_, resultSize.trans middleSize, ?_⟩
      · have same : (rest.map fun slot => copy.numbers slot - middle.numbers slot) =
            rest.map fun slot => copy.numbers slot - buffer.numbers slot :=
          List.map_congr_left fun slot member => by rw [elsewhere slot member]
        rw [same, List.append_assoc] at others
        rw [List.foldlM_cons, blended]
        exact others
      · intro slot
        rw [resultNumbers slot]
        by_cases later : slot ∈ rest
        · rw [elsewhere slot later]
          simp [later]
        · rw [middleNumbers]
          by_cases same : slot = first
          · subst same
            simp [later]
          · simp [later, same]

/-- On a copy of its own an operator moves its slots and proposes its changes. -/
theorem step_eq_ok {operator : Operator α} {buffer : Buffer α}
    (inside : operator.Inside buffer.size) (damping : α) :
    ∃ result differences, step damping operator buffer = .ok (result, differences) ∧
      result.size = buffer.size ∧
      result.numbers = operator.moved damping buffer.numbers ∧
      differences.map magnitude = operator.changes buffer.numbers := by
  obtain ⟨copy, evaluated, copySize, copyNumbers⟩ := Operator.eval_eq_ok inside rfl
  have target : copy.numbers = operator.target buffer.numbers := copyNumbers
  have insideSlots : ∀ slot ∈ operator.slots.eraseDups, slot < buffer.size :=
    fun slot member => inside slot (.inr (List.mem_eraseDups.mp member))
  obtain ⟨result, blended, resultSize, resultNumbers⟩ :=
    foldlM_blendSlot_eq_ok insideSlots (nodup_eraseDups _) copySize damping []
  rw [List.nil_append] at blended
  refine ⟨result, operator.slots.eraseDups.map fun slot =>
    copy.numbers slot - buffer.numbers slot, ?_, resultSize, ?_, ?_⟩
  · rw [step, evaluated]
    exact blended
  · ext slot
    rw [resultNumbers slot, target, Operator.moved]
    simp only [List.mem_eraseDups]
  · rw [List.map_map, target, Operator.changes]
    rfl

/-- A pass on fresh copies is the pass of the numbers, with the same changes. -/
theorem pass_eq_ok {operators : List (Operator α)} {buffer : Buffer α}
    (inside : ∀ operator ∈ operators, operator.Inside buffer.size) (damping : α) :
    ∃ result differences, pass damping operators buffer = .ok (result, differences) ∧
      result.size = buffer.size ∧
      result.numbers = Relaxation.pass damping operators buffer.numbers ∧
      differences.map magnitude = Relaxation.passChanges damping operators buffer.numbers := by
  induction operators generalizing buffer with
  | nil => exact ⟨buffer, [], rfl, rfl, rfl, rfl⟩
  | cons operator rest ih =>
      obtain ⟨middle, first, stepped, middleSize, middleNumbers, firstChanges⟩ :=
        step_eq_ok (inside operator (by simp)) damping
      have insideMiddle : ∀ other ∈ rest, other.Inside middle.size := fun other member => by
        rw [middleSize]
        exact inside other (by simp [member])
      obtain ⟨result, others, passed, resultSize, numbers, changes⟩ := ih insideMiddle
      refine ⟨result, first ++ others, ?_, resultSize.trans middleSize, ?_, ?_⟩
      · simp only [pass, stepped, bind, Except.bind, passed]
        rfl
      · rw [numbers, middleNumbers]
        rfl
      · rw [List.map_append, firstChanges, changes, middleNumbers, Relaxation.passChanges]

/-! ## Both loops side by side -/

/-- A pass with a shared scratch buffer ends in the same buffer, and with the same residual, as a
pass on fresh copies. -/
theorem applyAll_eq_pass {operators : List (Operator α)} {current scratch : Buffer α}
    (inside : ∀ operator ∈ operators, operator.Inside current.size)
    (size : scratch.size = current.size) (damping : α) :
    ∃ result next differences,
      Sweep.applyAll damping (Relaxation.plan operators) ⟨current, scratch, nat 0⟩ =
        .ok ⟨result, next, largest differences⟩ ∧
      pass damping operators current = .ok (result, differences) ∧
      result.size = current.size ∧ next.size = current.size := by
  obtain ⟨result, next, applied, resultSize, nextSize, numbers⟩ :=
    Sweep.applyAll_eq_ok inside size damping (nat 0)
  obtain ⟨other, differences, passed, otherSize, otherNumbers, changes⟩ :=
    pass_eq_ok inside damping
  have same : result = other :=
    Buffer.eq_of_numbers_eq (resultSize.trans otherSize.symm) (numbers.trans otherNumbers.symm)
  refine ⟨result, next, differences, ?_, ?_, resultSize, nextSize⟩
  · rw [applied, largest, changes]
  · rw [passed, same]

/-- Both loops go on in the same way from the same buffer, however they got there. -/
theorem run_eq_run {settings : Settings α} {operators : List (Operator α)}
    {current scratch : Buffer α} (inside : ∀ operator ∈ operators, operator.Inside current.size)
    (size : scratch.size = current.size) (left passes : Nat) (residual : Option α) :
    ∃ final stats,
      run settings operators left passes residual current = .ok (final, stats) ∧
      Relaxation.run settings (Relaxation.plan operators) left passes residual current scratch =
        .ok (final, stats) := by
  induction left generalizing current scratch passes residual with
  | zero => exact ⟨current, _, rfl, rfl⟩
  | succ left ih =>
      cases exceeded : settings.exceededBy residual with
      | false =>
          refine ⟨current, _, ?_, Relaxation.run_of_not_exceeded exceeded _ _ _ _ _⟩
          rw [run, exceeded]
          rfl
      | true =>
          obtain ⟨middle, spare, differences, applied, passed, middleSize, spareSize⟩ :=
            applyAll_eq_pass inside size settings.damping
          have insideMiddle : ∀ operator ∈ operators, operator.Inside middle.size := by
            rw [middleSize]
            exact inside
          obtain ⟨final, stats, afresh, shared⟩ := ih insideMiddle
            (spareSize.trans middleSize.symm) (passes + 1) (some (largest differences))
          refine ⟨final, stats, ?_, ?_⟩
          · rw [run, exceeded, if_pos rfl, passed]
            exact afresh
          · rw [Relaxation.run, exceeded, if_pos rfl, applied]
            exact shared

end Afresh

/-- Relaxation with one shared scratch buffer ends in the same buffer and with the same number of
passes, residual and verdict as relaxation on fresh copies. What the scratch buffer holds at the
start is of no effect. -/
theorem relax_eq_afresh (settings : Settings α) (operators : List (Operator α))
    (buffer : Buffer α) (inside : ∀ operator ∈ operators, operator.Inside buffer.size) :
    ∃ final stats,
      Afresh.relax settings operators buffer = .ok (final, stats) ∧
      relax settings operators buffer = .ok (final, stats) ∧
      ∀ scratch : Buffer α, scratch.size = buffer.size →
        Relaxation.run settings (Relaxation.plan operators) settings.budget 0 none buffer scratch =
          .ok (final, stats) := by
  obtain ⟨final, stats, afresh, shared⟩ :=
    Afresh.run_eq_run inside rfl settings.budget 0 none
  refine ⟨final, stats, afresh, shared, ?_⟩
  intro scratch size
  obtain ⟨other, otherStats, again, withScratch⟩ :=
    Afresh.run_eq_run inside size settings.budget 0 none
  cases again.symm.trans afresh
  exact withScratch

/-- A stack with one child in it twice, a spread of one entry, which proposes nothing, and an
alignment that moves slots of the stack. -/
def doubledChild : List (Operator ℚ) :=
  [.stack .y [4, 4, 8] 0 1 .center, .distribute [⟨4, 6⟩] 3, .alignNear [4, 9, 4]]

/-- What stands in the scratch buffer before the first pass is never read. -/
theorem relax_doubledChild_afresh :
    ∃ final stats,
      Afresh.relax ⟨4, 0, 1 / 2⟩ doubledChild #[0, 0, 0, 0, 7, 1, 5, 6, 2, 3, 9, 4] =
        .ok (final, stats) ∧
      relax ⟨4, 0, 1 / 2⟩ doubledChild #[0, 0, 0, 0, 7, 1, 5, 6, 2, 3, 9, 4] =
        .ok (final, stats) ∧
      Relaxation.run ⟨4, 0, 1 / 2⟩ (Relaxation.plan doubledChild) 4 0 none
        #[0, 0, 0, 0, 7, 1, 5, 6, 2, 3, 9, 4] (Array.replicate 12 99) = .ok (final, stats) := by
  obtain ⟨final, stats, afresh, shared, withScratch⟩ := relax_eq_afresh ⟨4, 0, 1 / 2⟩ doubledChild
    #[0, 0, 0, 0, 7, 1, 5, 6, 2, 3, 9, 4] (by decide)
  exact ⟨final, stats, afresh, shared, withScratch _ rfl⟩

end SceneLayout
