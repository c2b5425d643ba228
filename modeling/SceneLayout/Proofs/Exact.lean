import Mathlib.Algebra.Order.Field.Rat
import Mathlib.Tactic.Linarith
import Mathlib.Tactic.Ring
import SceneLayout.Proofs.OrderedField
import SceneLayout.Proofs.Pass

/-!
# Exact numbers

Rationals as scalars. Nothing is rounded, and no number is above all others, so a
relaxation with budget always makes its first pass. A pass without a change finds every operator
at rest, and no pass after it makes a difference.
-/

namespace SceneLayout

/-- Exact arithmetic. -/
instance : Scalar ℚ where
  lt a b := decide (a < b)
  le a b := decide (a ≤ b)
  infinity? := none

namespace Scalar

@[simp] theorem lt_iff {a b : ℚ} : lt a b = true ↔ a < b := decide_eq_true_iff

@[simp] theorem le_iff {a b : ℚ} : le a b = true ↔ a ≤ b := decide_eq_true_iff

@[simp] theorem nat_eq_cast (n : Nat) : (nat n : ℚ) = (n : ℚ) := rfl

@[simp] theorem magnitude_eq_abs (a : ℚ) : magnitude a = |a| := by
  rw [magnitude]
  by_cases negative : a < 0
  · rw [if_pos (lt_iff.mpr (by simpa using negative)), abs_of_neg negative]
  · rw [if_neg (fun h => negative (by simpa using lt_iff.mp h)), abs_of_nonneg (not_lt.mp negative)]

theorem max?_eq_greatest (first : ℚ) (rest : List ℚ) :
    (first :: rest).max? = some (greatest first rest) :=
  OrderedField.max?_eq_greatest first rest

theorem least_mem (first : ℚ) (rest : List ℚ) : least first rest ∈ first :: rest :=
  (OrderedField.isLeast_least first rest).1

theorem least_le {first a : ℚ} {rest : List ℚ} (h : a ∈ first :: rest) : least first rest ≤ a :=
  (OrderedField.isLeast_least first rest).2 h

theorem greatest_mem (first : ℚ) (rest : List ℚ) : greatest first rest ∈ first :: rest :=
  (OrderedField.isGreatest_greatest first rest).1

theorem le_greatest {first a : ℚ} {rest : List ℚ} (h : a ∈ first :: rest) :
    a ≤ greatest first rest :=
  (OrderedField.isGreatest_greatest first rest).2 h

theorem greatest_le_iff {first bound : ℚ} {rest : List ℚ} :
    greatest first rest ≤ bound ↔ ∀ a ∈ first :: rest, a ≤ bound := by
  constructor
  · intro h a member
    exact (le_greatest member).trans h
  · intro h
    exact h _ (greatest_mem first rest)

end Scalar

open Scalar

namespace Operator

theorem lowest_le {values : List ℚ} {a : ℚ} (h : a ∈ values) : lowest values ≤ a := by
  cases values with
  | nil => cases h
  | cons first rest => exact least_le h

theorem lowest_mem {values : List ℚ} (h : values ≠ []) : lowest values ∈ values := by
  cases values with
  | nil => exact absurd rfl h
  | cons first rest => exact least_mem first rest

theorem le_highest {values : List ℚ} {a : ℚ} (h : a ∈ values) : a ≤ highest values := by
  cases values with
  | nil => cases h
  | cons first rest => exact le_greatest h

theorem highest_mem {values : List ℚ} (h : values ≠ []) : highest values ∈ values := by
  cases values with
  | nil => exact absurd rfl h
  | cons first rest => exact greatest_mem first rest

/-- With full damping an operator moves its slots all the way. -/
theorem moved_one (numbers : Nat → ℚ) (operator : Operator ℚ) :
    operator.moved 1 numbers = operator.target numbers := by
  ext slot
  by_cases own : slot ∈ operator.slots
  · rw [moved_of_mem own]
    ring
  · rw [moved_of_not_mem own, target_of_not_mem own]

theorem moved_of_target_eq {operator : Operator ℚ} {numbers : Nat → ℚ}
    (same : operator.target numbers = numbers) (damping : ℚ) :
    operator.moved damping numbers = numbers := by
  ext slot
  rw [moved, same, sub_self, mul_zero, add_zero, ite_self]

/-- An operator that proposes the numbers of a buffer leaves it as it is. -/
theorem eval_eq_self_of_target_eq {operator : Operator ℚ} {buffer : Buffer ℚ}
    (inside : operator.Inside buffer.size)
    (same : operator.target buffer.numbers = buffer.numbers) :
    operator.eval buffer buffer = .ok buffer := by
  obtain ⟨result, evaluated, size, numbers⟩ := eval_eq_ok inside rfl
  have unchanged : result.numbers = buffer.numbers := numbers.trans same
  rw [evaluated, Buffer.eq_of_numbers_eq size unchanged]

theorem forall_changes_le_iff {operator : Operator ℚ} {numbers : Nat → ℚ} {bound : ℚ} :
    (∀ change ∈ operator.changes numbers, change ≤ bound) ↔
      ∀ slot ∈ operator.slots, |operator.target numbers slot - numbers slot| ≤ bound := by
  simp [changes]

end Operator

namespace Settings

theorem exceededBy_some {settings : Settings ℚ} {residual : ℚ} :
    settings.exceededBy (some residual) = true ↔ settings.epsilon < residual :=
  lt_iff

theorem exceededBy_none (settings : Settings ℚ) : settings.exceededBy none = true := rfl

theorem satisfiedBy_some {settings : Settings ℚ} {residual : ℚ} :
    settings.satisfiedBy (some residual) = true ↔ residual ≤ settings.epsilon :=
  le_iff

theorem satisfiedBy_none (settings : Settings ℚ) : settings.satisfiedBy none = false := rfl

end Settings

namespace Relaxation

variable {damping : ℚ} {operators : List (Operator ℚ)} {numbers : Nat → ℚ}

theorem passResidual_nonneg : 0 ≤ passResidual damping operators numbers := by
  have start : (nat 0 : ℚ) ≤ passResidual damping operators numbers := le_greatest (by simp)
  simpa using start

theorem passResidual_le_iff {bound : ℚ} :
    passResidual damping operators numbers ≤ bound ↔
      0 ≤ bound ∧ ∀ change ∈ passChanges damping operators numbers, change ≤ bound := by
  rw [passResidual, greatest_le_iff]
  simp

/-- A pass without a change leaves every number alone, and no operator proposes another one. -/
theorem target_eq_of_passResidual_eq_zero (zero : passResidual damping operators numbers = 0) :
    pass damping operators numbers = numbers ∧
      ∀ operator ∈ operators, operator.target numbers = numbers := by
  have none := (passResidual_le_iff.mp zero.le).2
  clear zero
  induction operators with
  | nil => exact ⟨rfl, by simp⟩
  | cons first rest ih =>
      rw [passChanges, List.forall_mem_append] at none
      have same : first.target numbers = numbers := by
        ext slot
        by_cases own : slot ∈ first.slots
        · have small := Operator.forall_changes_le_iff.mp none.1 slot own
          exact sub_eq_zero.mp (abs_nonpos_iff.mp small)
        · exact Operator.target_of_not_mem own
      have stays : first.moved damping numbers = numbers := Operator.moved_of_target_eq same damping
      rw [stays] at none
      obtain ⟨unchanged, others⟩ := ih none.2
      constructor
      · rw [pass, List.foldl_cons, stays]
        exact unchanged
      · intro operator member
        rcases List.mem_cons.mp member with rfl | later
        · exact same
        · exact others operator later

/-- Conversely, where no operator proposes another number a pass makes no change. -/
theorem passResidual_eq_zero_of_target_eq
    (still : ∀ operator ∈ operators, operator.target numbers = numbers) :
    passResidual damping operators numbers = 0 := by
  apply le_antisymm _ passResidual_nonneg
  rw [passResidual_le_iff]
  refine ⟨le_rfl, ?_⟩
  induction operators with
  | nil => exact List.forall_mem_nil _
  | cons first rest ih =>
      obtain ⟨same, others⟩ := List.forall_mem_cons.mp still
      rw [passChanges, Operator.moved_of_target_eq same, List.forall_mem_append]
      refine ⟨Operator.forall_changes_le_iff.mpr ?_, ih others⟩
      intro slot _
      rw [same, sub_self, abs_zero]

/-- After a pass without a change nothing happens any more. -/
theorem afterPasses_of_residualAfter_eq_zero {count later : Nat}
    (zero : residualAfter damping operators numbers count = some 0) (le : count ≤ later) :
    afterPasses damping operators numbers later = afterPasses damping operators numbers count := by
  cases count with
  | zero => cases zero
  | succ count =>
      have fixed := (target_eq_of_passResidual_eq_zero (Option.some.inj zero)).1
      induction later, le using Nat.le_induction with
      | base => rfl
      | succ later _ ih => rw [afterPasses_succ, ih, afterPasses_succ, fixed, fixed]

/-- After a pass without a change every operator proposes the numbers that are there. -/
theorem target_afterPasses_of_residualAfter_eq_zero {count : Nat}
    (zero : residualAfter damping operators numbers count = some 0) :
    ∀ operator ∈ operators, operator.target (afterPasses damping operators numbers count) =
      afterPasses damping operators numbers count := by
  cases count with
  | zero => cases zero
  | succ count =>
      obtain ⟨unchanged, still⟩ := target_eq_of_passResidual_eq_zero (Option.some.inj zero)
      rw [afterPasses_succ, unchanged]
      exact still

theorem residualAfter_nonneg {count : Nat} {residual : ℚ}
    (last : residualAfter damping operators numbers count = some residual) : 0 ≤ residual := by
  cases count with
  | zero => cases last
  | succ count => exact Option.some.inj last ▸ passResidual_nonneg

/-- Before its limit a relaxation stops with a pass that makes small changes only. -/
theorem StopsAfter.small_of_lt {settings : Settings ℚ} {limit count : Nat}
    (stops : StopsAfter settings operators numbers limit count) (early : count < limit) :
    ∃ residual, residualAfter settings.damping operators numbers count = some residual ∧
      residual ≤ settings.epsilon := by
  have stopped := stops.stopped early
  cases last : residualAfter settings.damping operators numbers count with
  | none =>
      rw [last, Settings.exceededBy_none] at stopped
      cases stopped
  | some residual =>
      rw [last, ← Bool.not_eq_true, Settings.exceededBy_some, not_lt] at stopped
      exact ⟨residual, rfl, stopped⟩

/-- A relaxation that accepts no change at all comes to rest with the first pass that makes none,
and no operator changes the buffer that it leaves. -/
theorem relax_comes_to_rest {buffer : Buffer ℚ}
    (inside : ∀ operator ∈ operators, operator.Inside buffer.size) {limit budget : Nat}
    (zero : residualAfter damping operators buffer.numbers limit = some 0)
    (enough : limit ≤ budget) :
    ∃ final stats, relax ⟨budget, 0, damping⟩ operators buffer = .ok (final, stats) ∧
      stats.converged = true ∧ stats.residual = some 0 ∧ stats.passes ≤ limit ∧
      final.size = buffer.size ∧
      final.numbers = afterPasses damping operators buffer.numbers limit ∧
      ∀ operator ∈ operators, operator.eval final final = .ok final := by
  obtain ⟨count, final, ran, size, reached, stops⟩ := relax_eq_ok inside ⟨budget, 0, damping⟩
  have few : count ≤ limit := by
    by_contra more
    have exceeded := stops.calledFor limit (not_le.mp more)
    rw [zero, Settings.exceededBy_some] at exceeded
    exact lt_irrefl _ exceeded
  have last : residualAfter damping operators buffer.numbers count = some 0 := by
    rcases few.eq_or_lt with rfl | early
    · exact zero
    · obtain ⟨residual, last, small⟩ := stops.small_of_lt (early.trans_le enough)
      rw [last, le_antisymm small (residualAfter_nonneg last)]
  refine ⟨final, _, ran, ?_, last, few, size, ?_, ?_⟩
  · simp only [statsAfter, last]
    exact Settings.satisfiedBy_some.mpr le_rfl
  · rw [reached, afterPasses_of_residualAfter_eq_zero last few]
  · intro operator member
    apply Operator.eval_eq_self_of_target_eq (size ▸ inside operator member)
    rw [reached]
    exact target_afterPasses_of_residualAfter_eq_zero last operator member

end Relaxation

end SceneLayout
