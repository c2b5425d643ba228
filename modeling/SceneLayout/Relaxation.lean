import SceneLayout.Scene.Operator

/-!
# Relaxation

A buffer is relaxed in passes. A pass takes the operators in order; each proposal is
blended into the buffer at once, so a later operator sees what an earlier one has
moved. The residual of a pass is the largest change that was proposed in it. Passes
are made until the residual is small or the budget is used up; running out of
budget is no error.

## Implementation notes

All operators share one scratch buffer for their proposals. Before an operator is
evaluated its own slots are refreshed from the current buffer, so nothing that an
earlier operator left there is read. Each distinct slot is blended once, in the
order of first occurrence.
-/

namespace SceneLayout

universe u

/-- When relaxation stops, and which part of a proposed change is made. -/
structure Settings (α : Type u) where
  budget : Nat
  epsilon : α
  damping : α

/-- How a relaxation ended. There is no residual before the first pass. -/
structure Stats (α : Type u) where
  passes : Nat
  residual : Option α
  converged : Bool

/-- A relaxation that met a slot outside the buffer, and the buffer as it was then. -/
structure Interruption (α : Type u) where
  buffer : Buffer α
  error : SlotError

variable {α : Type u} [Scalar α]

open Scalar

namespace Settings

/-- At most 100 passes, down to changes of a millionth, making half of each proposed change. -/
def standard : Settings α := ⟨100, nat 1 / nat 1000000, nat 1 / nat 2⟩

/-- The settings with those values replaced that are given. -/
def override (settings : Settings α) (budget : Option Nat) (epsilon damping : Option α) :
    Settings α where
  budget := budget.getD settings.budget
  epsilon := epsilon.getD settings.epsilon
  damping := damping.getD settings.damping

/-- The residual calls for another pass; a missing one does unless nothing exceeds epsilon. -/
def exceededBy (settings : Settings α) : Option α → Bool
  | some residual => lt settings.epsilon residual
  | none =>
      match Scalar.infinity? (α := α) with
      | some infinity => lt settings.epsilon infinity
      | none => true

/-- The residual is small enough; a missing one is only if everything is at most epsilon. -/
def satisfiedBy (settings : Settings α) : Option α → Bool
  | some residual => le residual settings.epsilon
  | none =>
      match Scalar.infinity? (α := α) with
      | some infinity => le infinity settings.epsilon
      | none => false

end Settings

/-- The buffers and the largest change so far in the middle of a pass. -/
structure Sweep (α : Type u) where
  current : Buffer α
  scratch : Buffer α
  residual : α

namespace Sweep

/-- Copies slots of the current buffer into the scratch buffer. -/
def refresh (current : Buffer α) (slots : List Nat) (scratch : Buffer α) :
    Except SlotError (Buffer α) :=
  slots.foldlM (fun scratch slot => do
    let value ← Buffer.read current slot
    Buffer.write scratch slot value) scratch

/-- Moves one slot by the damped difference to its proposed value. -/
def blendSlot (damping : α) (scratch : Buffer α) (state : Buffer α × α) (slot : Nat) :
    Buffer α × α :=
  let (current, residual) := state
  match current[slot]?, scratch[slot]? with
  | some old, some proposed =>
      let change := proposed - old
      (current.setIfInBounds slot (old + damping * change),
        if lt residual (magnitude change) then magnitude change else residual)
  | _, _ => (current, residual)

/-- Evaluates an operator and blends its proposals for the given slots. -/
def apply (damping : α) (operator : Operator α) (slots : List Nat) :
    Sweep α → Except (Interruption α) (Sweep α)
  | ⟨current, scratch, residual⟩ =>
      match refresh current slots scratch >>= operator.eval current with
      | .error error => .error ⟨current, error⟩
      | .ok scratch =>
          let (current, residual) :=
            slots.foldl (blendSlot damping scratch) (current, residual)
          .ok ⟨current, scratch, residual⟩

/-- Blending keeps the length of the buffer. -/
theorem size_blendSlot (damping : α) (scratch : Buffer α) (state : Buffer α × α) (slot : Nat) :
    (blendSlot damping scratch state slot).1.size = state.1.size := by
  obtain ⟨current, residual⟩ := state
  simp only [blendSlot]
  split
  · exact Array.size_setIfInBounds
  · rfl

theorem size_foldl_blendSlot (damping : α) (scratch : Buffer α) (slots : List Nat)
    (state : Buffer α × α) :
    (slots.foldl (blendSlot damping scratch) state).1.size = state.1.size := by
  induction slots generalizing state with
  | nil => rfl
  | cons slot rest ih => rw [List.foldl_cons, ih, size_blendSlot]

/-- Takes operators with their distinct slots in order. -/
def applyAll (damping : α) :
    List (Operator α × List Nat) → Sweep α → Except (Interruption α) (Sweep α)
  | [], sweep => .ok sweep
  | (operator, slots) :: rest, sweep =>
      match sweep.apply damping operator slots with
      | .error interruption => .error interruption
      | .ok sweep => applyAll damping rest sweep

end Sweep

namespace Relaxation

/-- The operators with their distinct slots, in the order of first occurrence. -/
def plan (operators : List (Operator α)) : List (Operator α × List Nat) :=
  operators.map fun operator => (operator, operator.slots.eraseDups)

/-- Makes passes while the residual calls for one and some of the budget is left. -/
def run (settings : Settings α) (plan : List (Operator α × List Nat)) :
    Nat → Nat → Option α → Buffer α → Buffer α → Except (Interruption α) (Buffer α × Stats α)
  | 0, passes, residual, current, _ =>
      .ok (current, ⟨passes, residual, settings.satisfiedBy residual⟩)
  | left + 1, passes, residual, current, scratch =>
      if settings.exceededBy residual then
        match Sweep.applyAll settings.damping plan ⟨current, scratch, nat 0⟩ with
        | .error interruption => .error interruption
        | .ok ⟨current, scratch, residual⟩ =>
            run settings plan left (passes + 1) (some residual) current scratch
      else .ok (current, ⟨passes, residual, settings.satisfiedBy residual⟩)

/-- Without budget no pass is made. -/
theorem run_zero (settings : Settings α) (plan : List (Operator α × List Nat)) (passes : Nat)
    (residual : Option α) (current scratch : Buffer α) :
    run settings plan 0 passes residual current scratch =
      .ok (current, ⟨passes, residual, settings.satisfiedBy residual⟩) := rfl

/-- No pass is made after a residual that does not call for one. -/
theorem run_of_not_exceeded {settings : Settings α} {residual : Option α}
    (h : settings.exceededBy residual = false) (plan : List (Operator α × List Nat))
    (left passes : Nat) (current scratch : Buffer α) :
    run settings plan left passes residual current scratch =
      .ok (current, ⟨passes, residual, settings.satisfiedBy residual⟩) := by
  cases left with
  | zero => rfl
  | succ left => simp [run, h]

end Relaxation

/-- Relaxes a buffer under operators. -/
def relax (settings : Settings α) (operators : List (Operator α)) (buffer : Buffer α) :
    Except (Interruption α) (Buffer α × Stats α) :=
  Relaxation.run settings (Relaxation.plan operators) settings.budget 0 none buffer buffer

end SceneLayout
