import SceneLayout.Proofs.Doubles
import SceneLayout.Proofs.Exact

/-!
# Relaxation in two parts

The budget of a relaxation can be split. If the first part of it was enough, all of it
leads to the same result; if not, all of it leads to where a second relaxation leads that
starts from what the first one left, and their passes add up. So nothing but the buffer
is carried from pass to pass.

## Implementation notes

The laws that are needed are about comparisons only, and they hold of doubles. A residual
begins at zero and only gives way to changes that are above it, so it never is a NaN; an
epsilon that is none then either exceeds it or satisfies it.

Main statement: `relax_resumes`.
-/

namespace SceneLayout

universe u

open Scalar

/-- Comparisons that agree with one another. Numbers that are the same as themselves are compared
as in a linear order, and the others, of which NaN is one, are above nothing. -/
class LawfulComparison (α : Type u) [Scalar α] : Prop where
  not_lt_of_le {a b : α} : le a b = true → lt b a = false
  lt_of_not_le {a b : α} : same a a = true → same b b = true → le a b = false → lt b a = true
  same_of_lt {a b : α} : lt a b = true → same b b = true
  same_zero : same (nat 0 : α) (nat 0) = true
  same_infinity {top : α} : infinity? = some top → same top top = true
  lt_infinity {a b top : α} : infinity? = some top → lt a b = true → lt a top = true

instance : LawfulComparison ℚ where
  not_lt_of_le h := decide_eq_false (not_lt_of_ge (le_iff.mp h))
  lt_of_not_le _ _ h := lt_iff.mpr (not_le.mp (of_decide_eq_false h))
  same_of_lt _ := OrderedField.same_iff.mpr rfl
  same_zero := rfl
  same_infinity none := by cases none
  lt_infinity none := by cases none

instance : LawfulComparison Float where
  not_lt_of_le h := by
    obtain ⟨p, atA, q, atB, below⟩ := le_iff_place.mp h
    rw [Bool.eq_false_iff, Ne, lt_iff_place]
    rintro ⟨q', atB', p', atA', above⟩
    cases Option.mem_unique atA atA'
    cases Option.mem_unique atB atB'
    exact not_lt_of_ge below above
  lt_of_not_le ofA ofB h := by
    obtain ⟨p, atA⟩ := same_self_iff_place.mp ofA
    obtain ⟨q, atB⟩ := same_self_iff_place.mp ofB
    refine lt_iff_place.mpr ⟨q, atB, p, atA, not_le.mp fun below => ?_⟩
    rw [le_iff_place.mpr ⟨p, atA, q, atB, below⟩] at h
    cases h
  same_of_lt h := by
    obtain ⟨_, _, q, atB, _⟩ := lt_iff_place.mp h
    exact same_self_iff_place.mpr ⟨q, atB⟩
  same_zero := same_self_iff_place.mpr ⟨_, by rw [unpack_zero]; rfl⟩
  same_infinity top := by
    cases top
    exact same_self_iff_place.mpr ⟨_, by rw [unpack_infinity]; rfl⟩
  lt_infinity top h := by
    cases top
    obtain ⟨p, atA, q, atB, below⟩ := lt_iff_place.mp h
    refine lt_iff_place.mpr ⟨p, atA, toLex (2, toLex (0, 0)), by rw [unpack_infinity]; rfl, ?_⟩
    exact below.trans_le (place_le_infinity atB)

variable {α : Type u} [Scalar α]

namespace Settings

/-- The settings with another budget. -/
def withBudget (settings : Settings α) (budget : Nat) : Settings α := { settings with budget }

section Comparison

variable [LawfulComparison α] {settings : Settings α} {residual : Option α}

theorem exceededBy_eq_false (h : settings.satisfiedBy residual = true) :
    settings.exceededBy residual = false := by
  cases residual with
  | some residual => exact LawfulComparison.not_lt_of_le h
  | none =>
      rw [satisfiedBy] at h
      rw [exceededBy]
      cases top : infinity? (α := α) with
      | none => simp [top] at h
      | some top' =>
          simp only [top] at h ⊢
          exact LawfulComparison.not_lt_of_le h

theorem exceededBy_eq_true (number : same settings.epsilon settings.epsilon = true)
    (value : ∀ change ∈ residual, same change change = true)
    (h : settings.satisfiedBy residual = false) : settings.exceededBy residual = true := by
  cases residual with
  | some residual => exact LawfulComparison.lt_of_not_le (value residual rfl) number h
  | none =>
      rw [satisfiedBy] at h
      rw [exceededBy]
      cases top : infinity? (α := α) with
      | none => rfl
      | some top' =>
          simp only [top] at h ⊢
          exact LawfulComparison.lt_of_not_le (LawfulComparison.same_infinity top) number h

/-- What a residual calls for is called for without one. -/
theorem exceededBy_none_of_exceededBy (h : settings.exceededBy residual = true) :
    settings.exceededBy none = true := by
  cases residual with
  | none => exact h
  | some residual =>
      rw [exceededBy]
      cases top : infinity? (α := α) with
      | none => rfl
      | some top' => exact LawfulComparison.lt_infinity top h

end Comparison

end Settings

theorem same_greatest [LawfulComparison α] {first : α} (value : same first first = true)
    (rest : List α) : same (greatest first rest) (greatest first rest) = true := by
  induction rest generalizing first with
  | nil => exact value
  | cons second rest ih =>
      rw [greatest_cons]
      apply ih
      split
      · rename_i above
        exact LawfulComparison.same_of_lt above
      · exact value

namespace Relaxation

variable {operators : List (Operator α)} {numbers : Nat → α}

/-- A residual is no NaN. -/
theorem same_of_mem_residualAfter [LawfulComparison α] {damping : α} {count : Nat} :
    ∀ change ∈ residualAfter damping operators numbers count, same change change = true := by
  intro change member
  cases count with
  | zero => cases member
  | succ count =>
      cases member
      exact same_greatest LawfulComparison.same_zero _

theorem afterPasses_add (damping : α) (operators : List (Operator α)) (numbers : Nat → α)
    (first second : Nat) :
    afterPasses damping operators (afterPasses damping operators numbers first) second =
      afterPasses damping operators numbers (first + second) := by
  rw [Nat.add_comm, afterPasses, afterPasses, afterPasses, Function.iterate_add_apply]

/-- After a further pass it does not matter where the count began. -/
theorem residualAfter_add (damping : α) (operators : List (Operator α)) (numbers : Nat → α)
    (first : Nat) {second : Nat} (further : second ≠ 0) :
    residualAfter damping operators (afterPasses damping operators numbers first) second =
      residualAfter damping operators numbers (first + second) := by
  obtain ⟨second, rfl⟩ := Nat.exists_eq_succ_of_ne_zero further
  rw [residualAfter, afterPasses_add]
  rfl

/-- A relaxation that used its limit up and still calls for a pass goes on as a new one does. -/
theorem StopsAfter.append {settings : Settings α} {first second more : Nat}
    (h : StopsAfter settings operators numbers first first)
    (exceeded :
      settings.exceededBy (residualAfter settings.damping operators numbers first) = true)
    (k : StopsAfter settings operators (afterPasses settings.damping operators numbers first)
      second more) (further : more ≠ 0) :
    StopsAfter settings operators numbers (first + second) (first + more) where
  within := Nat.add_le_add_left k.within first
  calledFor := by
    intro pass before
    rcases Nat.lt_trichotomy pass first with early | rfl | late
    · exact h.calledFor pass early
    · exact exceeded
    · obtain ⟨since, rfl⟩ := Nat.exists_eq_add_of_lt late
      rw [Nat.add_assoc, ← residualAfter_add _ _ _ _ (Nat.succ_ne_zero since)]
      exact k.calledFor _ (by omega)
  stopped := by
    intro left
    rw [← residualAfter_add _ _ _ _ further]
    exact k.stopped (Nat.add_lt_add_iff_left.mp left)

/-- With another budget it is only the limit that is another one. -/
theorem relax_withBudget_eq_ok {buffer : Buffer α}
    (inside : ∀ operator ∈ operators, operator.Inside buffer.size) (settings : Settings α)
    (budget : Nat) :
    ∃ count final,
      relax (settings.withBudget budget) operators buffer =
        .ok (final, statsAfter settings operators buffer.numbers count) ∧
      final.size = buffer.size ∧
      final.numbers = afterPasses settings.damping operators buffer.numbers count ∧
      StopsAfter settings operators buffer.numbers budget count := by
  obtain ⟨count, final, ran, size, reached, stops⟩ :=
    relax_eq_ok inside (settings.withBudget budget)
  exact ⟨count, final, ran, size, reached, stops.within, stops.calledFor, stops.stopped⟩

/-- Where a relaxation with another budget stops tells its result. -/
theorem relax_withBudget_of_stopsAfter {settings : Settings α} {buffer final : Buffer α}
    {budget count : Nat} (inside : ∀ operator ∈ operators, operator.Inside buffer.size)
    (stops : StopsAfter settings operators buffer.numbers budget count)
    (size : final.size = buffer.size)
    (reached : final.numbers = afterPasses settings.damping operators buffer.numbers count) :
    relax (settings.withBudget budget) operators buffer =
      .ok (final, statsAfter settings operators buffer.numbers count) := by
  have limited : StopsAfter (settings.withBudget budget) operators buffer.numbers budget count :=
    ⟨stops.within, stops.calledFor, stops.stopped⟩
  exact relax_eq_of_stopsAfter inside limited size reached

end Relaxation

open Relaxation

/-- A relaxation that stopped with a residual small enough stops there with any further budget. One
that did not made all of its passes, and a further budget leads to where it leads from the buffer
that was left, after as many passes more. -/
theorem relax_resumes [LawfulComparison α] {operators : List (Operator α)} {buffer : Buffer α}
    (inside : ∀ operator ∈ operators, operator.Inside buffer.size) (settings : Settings α)
    (number : same settings.epsilon settings.epsilon = true) (first : Nat) {second : Nat}
    (positive : 1 ≤ second) :
    ∃ left stats, relax (settings.withBudget first) operators buffer = .ok (left, stats) ∧
      (stats.converged = true →
        relax (settings.withBudget (first + second)) operators buffer = .ok (left, stats)) ∧
      (stats.converged = false → ∃ final further,
        relax (settings.withBudget second) operators left = .ok (final, further) ∧
        relax (settings.withBudget (first + second)) operators buffer =
          .ok (final, ⟨first + further.passes, further.residual, further.converged⟩)) := by
  obtain ⟨count, left, ran, size, reached, stops⟩ := relax_withBudget_eq_ok inside settings first
  refine ⟨left, _, ran, ?_, ?_⟩
  · intro converged
    refine relax_withBudget_of_stopsAfter inside ?_ size reached
    exact ⟨stops.within.trans (Nat.le_add_right first second), stops.calledFor,
      fun _ => Settings.exceededBy_eq_false converged⟩
  · intro unfinished
    have exceeded : settings.exceededBy
        (residualAfter settings.damping operators buffer.numbers count) = true :=
      Settings.exceededBy_eq_true number same_of_mem_residualAfter unfinished
    obtain rfl : count = first := by
      apply le_antisymm stops.within
      by_contra short
      rw [stops.stopped (not_le.mp short)] at exceeded
      cases exceeded
    have insideLeft : ∀ operator ∈ operators, operator.Inside left.size := by
      rw [size]
      exact inside
    obtain ⟨more, final, resumed, finalSize, finalReached, finalStops⟩ :=
      relax_withBudget_eq_ok insideLeft settings second
    have passes : more ≠ 0 := by
      rintro rfl
      have stopped : settings.exceededBy none = false := finalStops.stopped positive
      rw [Settings.exceededBy_none_of_exceededBy exceeded] at stopped
      cases stopped
    rw [reached] at resumed finalReached finalStops
    have all := stops.append exceeded finalStops passes
    rw [afterPasses_add] at finalReached
    refine ⟨final, _, resumed, ?_⟩
    rw [relax_withBudget_of_stopsAfter inside all (finalSize.trans size) finalReached]
    simp only [statsAfter, residualAfter_add _ _ _ _ passes]

/-- A rectangle that is drawn to another one, and a frame around it. -/
def drawnFrame : List (Operator Float) := [.alignNear [0, 4], .background 4 8 (nat 2)]

/-- The other rectangle at the origin, the rectangle ten to the right of it, and no frame yet. -/
def drawnFrameBuffer : Buffer Float :=
  #[nat 0, nat 0, nat 4, nat 4, nat 10, nat 0, nat 4, nat 4, nat 0, nat 0, nat 0, nat 0]

/-- One pass in doubles is not enough, and two more do what three do at once. -/
theorem relax_resumes_drawnFrame :
    (Settings.standard (α := Float)).epsilon.isNaN = false ∧ ∃ left stats final further,
      relax (Settings.standard.withBudget 1) drawnFrame drawnFrameBuffer = .ok (left, stats) ∧
      stats.converged = false ∧
      relax (Settings.standard.withBudget 2) drawnFrame left = .ok (final, further) ∧
      relax (Settings.standard.withBudget 3) drawnFrame drawnFrameBuffer =
        .ok (final, ⟨1 + further.passes, further.residual, further.converged⟩) := by
  have notNaN : (Settings.standard (α := Float)).epsilon.isNaN = false := by decide +kernel
  have number : same (Settings.standard (α := Float)).epsilon Settings.standard.epsilon = true := by
    rw [same_self_eq_not_isNaN, notNaN, Bool.not_false]
  have inside : ∀ operator ∈ drawnFrame, operator.Inside drawnFrameBuffer.size := by decide
  have two : 1 ≤ 2 := by decide
  refine ⟨notNaN, ?_⟩
  obtain ⟨left, stats, ran, -, resumes⟩ := relax_resumes inside Settings.standard number 1 two
  have unfinished : stats.converged = false := by
    obtain ⟨left', stats', ran', unfinished⟩ : ∃ left stats,
        relax (Settings.standard.withBudget 1) drawnFrame drawnFrameBuffer = .ok (left, stats) ∧
        stats.converged = false := ⟨_, _, rfl, by decide +kernel⟩
    rw [ran] at ran'
    cases ran'
    exact unfinished
  obtain ⟨final, further, second, all⟩ := resumes unfinished
  exact ⟨left, stats, final, further, ran, unfinished, second, all⟩

end SceneLayout
