import SceneLayout.Proofs.Sensitivity

/-!
# What convergence certifies

The residual is measured while the numbers still move: an operator is judged on the
numbers before it, and later operators of the pass may undo what it was credited for.
In a pass with a small residual no slot drifts far, though, and no proposal reacts to
that drift by more than the gain of its operator. So at the end of the pass every
operator still proposes almost the numbers that are there.

Main statement: `relax_converged_near_fixed`.
-/

namespace SceneLayout

open Scalar

namespace Relaxation

variable {damping bound : ℚ} {operators : List (Operator ℚ)} {numbers : Nat → ℚ}

/-- An operator that proposes small changes moves no slot far. -/
theorem abs_moved_sub_le {operator : Operator ℚ} (nonneg : 0 ≤ damping) (small : 0 ≤ bound)
    (changes : ∀ slot ∈ operator.slots, |operator.target numbers slot - numbers slot| ≤ bound)
    (slot : Nat) : |operator.moved damping numbers slot - numbers slot| ≤ damping * bound := by
  by_cases own : slot ∈ operator.slots
  · rw [Operator.moved_of_mem own, add_sub_cancel_left, abs_mul, abs_of_nonneg nonneg]
    exact mul_le_mul_of_nonneg_left (changes slot own) nonneg
  · rw [Operator.moved_of_not_mem own, sub_self, abs_zero]
    exact mul_nonneg nonneg small

/-- A pass in which only small changes are proposed moves no slot far. -/
theorem abs_pass_sub_le (nonneg : 0 ≤ damping) (small : 0 ≤ bound)
    (changes : ∀ change ∈ passChanges damping operators numbers, change ≤ bound) (slot : Nat) :
    |pass damping operators numbers slot - numbers slot| ≤
      operators.length * (damping * bound) := by
  induction operators generalizing numbers with
  | nil => simp [pass]
  | cons operator rest ih =>
      rw [passChanges, List.forall_mem_append] at changes
      have first := abs_moved_sub_le nonneg small
        (Operator.forall_changes_le_iff.mp changes.1) slot
      have later := ih changes.2
      have along := abs_sub_le (pass damping rest (operator.moved damping numbers) slot)
        (operator.moved damping numbers slot) (numbers slot)
      rw [List.length_cons]
      push_cast
      calc
        |pass damping (operator :: rest) numbers slot - numbers slot|
            ≤ rest.length * (damping * bound) + damping * bound :=
              along.trans (add_le_add later first)
        _ = (rest.length + 1) * (damping * bound) := by ring

/-- The largest number of entries of any of the operators, but at least three. -/
def largestCount (operators : List (Operator ℚ)) : Nat :=
  operators.foldr (fun operator count => max operator.entries count) 3

theorem gain_le_largestCount {operator : Operator ℚ} (member : operator ∈ operators) :
    operator.gain ≤ largestCount operators := by
  induction operators with
  | nil => cases member
  | cons first rest ih =>
      have three : 3 ≤ largestCount rest := by
        clear ih member
        induction rest with
        | nil => exact le_rfl
        | cons _ _ ih => exact ih.trans (Nat.le_max_right _ _)
      rw [largestCount, List.foldr_cons]
      rcases List.mem_cons.mp member with rfl | later
      · exact max_le (three.trans (Nat.le_max_right _ _)) (Nat.le_max_left _ _)
      · exact (ih later).trans (Nat.le_max_right _ _)

/-- At the end of a pass in which only small changes were proposed, each of its operators proposes
small changes still. -/
theorem abs_target_pass_sub_le {operator : Operator ℚ} (member : operator ∈ operators)
    (nonneg : 0 ≤ damping) (small : 0 ≤ bound)
    (changes : ∀ change ∈ passChanges damping operators numbers, change ≤ bound)
    {slot : Nat} (own : slot ∈ operator.slots) :
    |operator.target (pass damping operators numbers) slot -
        pass damping operators numbers slot| ≤
      (1 + damping * operators.length * (1 + largestCount operators)) * bound := by
  obtain ⟨before, after, rfl⟩ := List.append_of_mem member
  -- `middle` are the numbers on which the operator was judged in the pass.
  set middle := pass damping before numbers with reached
  set final := pass damping (operator :: after) middle with ended
  set drift := ((before ++ operator :: after).length : ℚ) * (damping * bound) with drifted
  rw [passChanges_append, List.forall_mem_append] at changes
  have finish : pass damping (before ++ operator :: after) numbers = final := pass_append _ _ _ _
  have judged : |operator.target middle slot - middle slot| ≤ bound := by
    have own_changes : ∀ change ∈ operator.changes middle, change ≤ bound := fun change listed =>
      changes.2 change (List.mem_append_left _ listed)
    exact Operator.forall_changes_le_iff.mp own_changes slot own
  have moved : ∀ other, |final other - middle other| ≤ drift := by
    intro other
    refine (abs_pass_sub_le nonneg small changes.2 other).trans ?_
    apply mul_le_mul_of_nonneg_right _ (mul_nonneg nonneg small)
    exact_mod_cast (List.sublist_append_right before (operator :: after)).length_le
  have nonneg_drift : 0 ≤ drift := (abs_nonneg _).trans (moved 0)
  have reaction : |operator.target final slot - operator.target middle slot| ≤
      largestCount (before ++ operator :: after) * drift := by
    refine (Operator.abs_target_sub_le moved operator slot).trans ?_
    apply mul_le_mul_of_nonneg_right _ nonneg_drift
    exact_mod_cast gain_le_largestCount member
  have here := moved slot
  rw [finish]
  calc
    |operator.target final slot - final slot|
        ≤ largestCount (before ++ operator :: after) * drift + (bound + drift) := by
          rw [abs_le] at *
          constructor <;> linarith
    _ = (1 + damping * (before ++ operator :: after).length *
          (1 + largestCount (before ++ operator :: after))) * bound := by
          rw [drifted]
          ring

/-- Where relaxation reports convergence, every operator proposes almost the numbers that the
buffer holds in the end: with `m` operators and damping `d` no proposal is further than
`(1 + d * m * (1 + L)) * ε` from the number in its slot, where `L` is the largest number of
entries, at least three. With `ε = 0` evaluating an operator changes nothing. -/
theorem relax_converged_near_fixed (settings : Settings ℚ) (operators : List (Operator ℚ))
    (buffer : Buffer ℚ) (inside : ∀ operator ∈ operators, operator.Inside buffer.size)
    (nonneg : 0 ≤ settings.damping) :
    ∃ final stats, relax settings operators buffer = .ok (final, stats) ∧
      (stats.converged = true → ∀ operator ∈ operators,
        ∃ next, operator.eval final final = .ok next ∧
          (∀ slot ∈ operator.slots, ∃ current proposed,
            final[slot]? = some current ∧ next[slot]? = some proposed ∧
            |proposed - current| ≤
              (1 + settings.damping * operators.length * (1 + largestCount operators)) *
                settings.epsilon) ∧
          (settings.epsilon = 0 → next = final)) := by
  obtain ⟨count, final, ran, size, numbers, -⟩ := relax_eq_ok inside settings
  refine ⟨final, statsAfter settings operators buffer.numbers count, ran, ?_⟩
  intro converged operator member
  cases count with
  | zero =>
      have none : (statsAfter settings operators buffer.numbers 0).converged = false :=
        Settings.satisfiedBy_none settings
      rw [none] at converged
      cases converged
  | succ count =>
      have residual := Settings.satisfiedBy_some.mp converged
      obtain ⟨small, changes⟩ := passResidual_le_iff.mp residual
      have insideFinal : operator.Inside final.size := by
        rw [size]
        exact inside operator member
      obtain ⟨next, evaluated, nextSize, nextNumbers⟩ := Operator.eval_eq_ok insideFinal rfl
      have near : ∀ slot ∈ operator.slots, |next.numbers slot - final.numbers slot| ≤
          (1 + settings.damping * operators.length * (1 + largestCount operators)) *
            settings.epsilon := by
        intro slot own
        rw [nextNumbers, numbers, afterPasses_succ]
        exact abs_target_pass_sub_le member nonneg small changes own
      refine ⟨next, evaluated, ?_, ?_⟩
      · intro slot own
        have inFinal : slot < final.size := insideFinal slot (.inr own)
        have inNext : slot < next.size := by omega
        exact ⟨final.numbers slot, next.numbers slot, Buffer.getElem?_eq_numbers inFinal,
          Buffer.getElem?_eq_numbers inNext, near slot own⟩
      · intro exact_bound
        apply Buffer.eq_of_numbers_eq nextSize
        ext slot
        by_cases own : slot ∈ operator.slots
        · have zero := near slot own
          rw [exact_bound, mul_zero] at zero
          exact sub_eq_zero.mp (abs_nonpos_iff.mp zero)
        · rw [nextNumbers]
          exact Operator.target_of_not_mem own

/-- Two entities aligned at a thousandth, one of them with a box around it. -/
theorem relax_boxed_pair_near_fixed :
    ∃ final stats,
      relax ⟨100, 1 / 1000, 1 / 2⟩ [.alignNear [0, 4], .background 4 8 2]
          (#[3, 0, 10, 10, 5, 1, 20, 20, 0, 0, 0, 0] : Buffer ℚ) = .ok (final, stats) ∧
      stats.converged = true ∧
      ∀ operator ∈ ([.alignNear [0, 4], .background 4 8 2] : List (Operator ℚ)),
        ∃ next, operator.eval final final = .ok next ∧
          ∀ slot ∈ operator.slots, ∃ current proposed,
            final[slot]? = some current ∧ next[slot]? = some proposed ∧
            |proposed - current| ≤ 1 / 200 := by
  obtain ⟨final, stats, ran, near⟩ :=
    relax_converged_near_fixed ⟨100, 1 / 1000, 1 / 2⟩ [.alignNear [0, 4], .background 4 8 2]
      #[3, 0, 10, 10, 5, 1, 20, 20, 0, 0, 0, 0] (by decide) (by norm_num)
  have converges : (relax ⟨100, 1 / 1000, 1 / 2⟩ [.alignNear [0, 4], .background 4 8 2]
      (#[3, 0, 10, 10, 5, 1, 20, 20, 0, 0, 0, 0] : Buffer ℚ)).toOption.map
        (fun result => result.2.converged) = some true := by
    decide +kernel
  rw [ran] at converges
  have converged : stats.converged = true := Option.some.inj converges
  refine ⟨final, stats, ran, converged, ?_⟩
  intro operator member
  obtain ⟨next, evaluated, close, -⟩ := near converged operator member
  refine ⟨next, evaluated, ?_⟩
  intro slot own
  obtain ⟨current, proposed, atFinal, atNext, small⟩ := close slot own
  refine ⟨current, proposed, atFinal, atNext, small.trans ?_⟩
  norm_num [largestCount, Operator.entries]

end Relaxation

end SceneLayout
