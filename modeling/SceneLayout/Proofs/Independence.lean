import SceneLayout.Proofs.Doubles
import SceneLayout.Proofs.Exact

/-!
# Independent operators

Operators see what those before them have moved, so their order matters. Two neighbours may
be swapped where neither writes a slot that the other one reads or writes: each then
proposes the same values and differences either way, and a pass collects the same
differences in another order. The residual does not tell the orders apart as long as the
numbers above zero are linearly ordered. Doubles are: a NaN is above nothing, and no two
doubles above zero are equal without being the same.

Main statement: `relax_swap_of_independent`.
-/

namespace SceneLayout

universe u

variable {α : Type u} [Scalar α]

open Scalar

namespace Scalar

/-- The numbers above zero are linearly ordered. -/
class OrdersPositives (α : Type u) [Scalar α] : Prop where
  irrefl : ∀ a : α, lt a a = false
  trans : ∀ {a b c : α}, lt a b = true → lt b c = true → lt a c = true
  trichotomy : ∀ {a b : α}, lt (nat 0) a = true → lt (nat 0) b = true →
    lt a b = true ∨ a = b ∨ lt b a = true

instance : OrdersPositives ℚ where
  irrefl a := decide_eq_false (lt_irrefl a)
  trans first second := lt_iff.mpr ((lt_iff.mp first).trans (lt_iff.mp second))
  trichotomy {a b} _ _ := by simpa using lt_trichotomy a b

instance : OrdersPositives Float where
  irrefl a := by
    rw [Bool.eq_false_iff, Ne, lt_iff_place]
    rintro ⟨p, atP, q, atQ, below⟩
    exact below.ne (Option.some.inj (atP.symm.trans atQ))
  trans first second := by
    rw [lt_iff_place] at first second ⊢
    obtain ⟨p, atP, q, atQ, below⟩ := first
    obtain ⟨q', atQ', s, atS, beyond⟩ := second
    cases atQ.symm.trans atQ'
    exact ⟨p, atP, s, atS, below.trans beyond⟩
  trichotomy := trichotomy_float

/-- Zero, or a number above it. -/
def IsFloor (a : α) : Prop :=
  a = nat 0 ∨ lt (nat 0) a = true

variable [OrdersPositives α]

theorem lt_asymm {a b : α} (h : lt a b = true) : lt b a = false := by
  rw [Bool.eq_false_iff]
  intro other
  exact Bool.eq_false_iff.mp (OrdersPositives.irrefl a) (OrdersPositives.trans h other)

theorem IsFloor.pos_of_lt {a b : α} (floor : IsFloor a) (h : lt a b = true) :
    lt (nat 0) b = true := by
  rcases floor with rfl | positive
  · exact h
  · exact OrdersPositives.trans positive h

/-- Raising a floor by a number leaves a floor. -/
theorem IsFloor.ite {a b : α} (floor : IsFloor a) : IsFloor (if lt a b then b else a) := by
  split
  case isTrue above => exact .inr (floor.pos_of_lt above)
  case isFalse => exact floor

/-- A floor may be raised by two numbers in either order. -/
theorem IsFloor.greatest_swap {a b c : α} (floor : IsFloor a) :
    greatest a [b, c] = greatest a [c, b] := by
  simp only [greatest_cons, greatest_nil]
  have drops {x y : α} (low : lt a y = false) (high : lt a x = true) : lt x y = false := by
    rw [Bool.eq_false_iff] at low ⊢
    exact fun below => low (OrdersPositives.trans high below)
  cases first : lt a b with
  | false =>
      cases second : lt a c with
      | false => simp [first, second]
      | true => simp [second, drops first second]
  | true =>
      cases second : lt a c with
      | false => simp [first, drops second first]
      | true =>
          rcases OrdersPositives.trichotomy (floor.pos_of_lt first) (floor.pos_of_lt second) with
            below | rfl | beyond
          · simp [below, lt_asymm below]
          · rfl
          · simp [beyond, lt_asymm beyond]

/-- The order of numbers does not change the greatest of them and a floor. -/
theorem IsFloor.greatest_perm {floor : α} (isFloor : IsFloor floor) {some others : List α}
    (permuted : some.Perm others) : greatest floor some = greatest floor others := by
  induction permuted generalizing floor with
  | nil => rfl
  | cons a _ ih => exact ih isFloor.ite
  | swap a b rest =>
      exact congrArg (greatest · rest) isFloor.greatest_swap
  | trans _ _ first second => exact (first isFloor).trans (second isFloor)

end Scalar

namespace Operator

/-- Neither operator writes a slot that the other one reads or writes. -/
structure Independent (first second : Operator α) : Prop where
  /-- What the first operator writes does not concern the second one. -/
  left : ∀ slot ∈ first.slots, slot ∉ second.reads ∧ slot ∉ second.slots
  /-- What the second operator writes does not concern the first one. -/
  right : ∀ slot ∈ second.slots, slot ∉ first.reads ∧ slot ∉ first.slots

variable {first second : Operator α}

omit [Scalar α] in
theorem independent_iff : Independent first second ↔
    (∀ slot ∈ first.slots, slot ∉ second.reads ∧ slot ∉ second.slots) ∧
      ∀ slot ∈ second.slots, slot ∉ first.reads ∧ slot ∉ first.slots :=
  ⟨fun h => ⟨h.left, h.right⟩, fun h => ⟨h.1, h.2⟩⟩

instance : Decidable (Independent first second) :=
  decidable_of_iff' _ independent_iff

omit [Scalar α] in
theorem Independent.symm (h : Independent first second) : Independent second first :=
  ⟨h.right, h.left⟩

/-- An operator proposes the same for its slots after an independent one. -/
theorem Independent.target_moved (h : Independent first second) {slot : Nat}
    (own : slot ∈ second.slots) (damping : α) (numbers : Nat → α) :
    second.target (first.moved damping numbers) slot = second.target numbers slot := by
  apply target_congr
  · intro read seen
    exact moved_of_not_mem (fun written => (h.left read written).1 seen) damping numbers
  · exact moved_of_not_mem (fun written => (h.left slot written).2 own) damping numbers

/-- An operator proposes the same differences after an independent one. -/
theorem Independent.changes_moved (h : Independent first second) (damping : α)
    (numbers : Nat → α) :
    second.changes (first.moved damping numbers) = second.changes numbers := by
  apply List.map_congr_left
  intro slot listed
  have own := List.mem_eraseDups.mp listed
  have apart : slot ∉ first.slots := (h.right slot own).2
  rw [h.target_moved own, moved_of_not_mem apart]

theorem Independent.moved_comm (h : Independent first second) (damping : α) (numbers : Nat → α) :
    second.moved damping (first.moved damping numbers) =
      first.moved damping (second.moved damping numbers) := by
  ext slot
  by_cases ofFirst : slot ∈ first.slots
  · have apart := (h.left slot ofFirst).2
    rw [moved_of_not_mem apart, moved_of_mem ofFirst, moved_of_mem ofFirst,
      h.symm.target_moved ofFirst, moved_of_not_mem apart]
  · by_cases ofSecond : slot ∈ second.slots
    · rw [moved_of_mem ofSecond, moved_of_not_mem ofFirst, moved_of_not_mem ofFirst,
        moved_of_mem ofSecond, h.target_moved ofSecond]
    · rw [moved_of_not_mem ofSecond, moved_of_not_mem ofFirst, moved_of_not_mem ofFirst,
        moved_of_not_mem ofSecond]

end Operator

namespace Relaxation

section Swap

variable {first second : Operator α} (independent : first.Independent second)
  (before after : List (Operator α)) (damping : α) (numbers : Nat → α)
include independent

theorem pass_swap :
    pass damping (before ++ first :: second :: after) numbers =
      pass damping (before ++ second :: first :: after) numbers :=
  calc
    _ = pass damping after
        (second.moved damping (first.moved damping (pass damping before numbers))) :=
      pass_append damping before (first :: second :: after) numbers
    _ = pass damping after
        (first.moved damping (second.moved damping (pass damping before numbers))) := by
      rw [independent.moved_comm]
    _ = pass damping (before ++ second :: first :: after) numbers :=
      (pass_append damping before (second :: first :: after) numbers).symm

theorem perm_passChanges_swap :
    (passChanges damping (before ++ first :: second :: after) numbers).Perm
      (passChanges damping (before ++ second :: first :: after) numbers) := by
  rw [passChanges_append, passChanges_append]
  apply List.Perm.append_left
  generalize pass damping before numbers = left
  calc
    passChanges damping (first :: second :: after) left =
        first.changes left ++ second.changes left ++
          passChanges damping after (second.moved damping (first.moved damping left)) := by
      rw [passChanges, passChanges, independent.changes_moved, List.append_assoc]
    List.Perm _ (second.changes left ++ first.changes left ++
        passChanges damping after (second.moved damping (first.moved damping left))) :=
      List.perm_append_comm.append_right _
    _ = passChanges damping (second :: first :: after) left := by
      rw [independent.moved_comm, passChanges, passChanges, independent.symm.changes_moved,
        List.append_assoc]

theorem passResidual_swap [OrdersPositives α] :
    passResidual damping (before ++ first :: second :: after) numbers =
      passResidual damping (before ++ second :: first :: after) numbers := by
  have floor : IsFloor (nat 0 : α) := .inl rfl
  exact floor.greatest_perm
    (perm_passChanges_swap independent before after damping numbers)

end Swap

variable {settings : Settings α} {some others : List (Operator α)}

/-- Operators that make the same passes with the same residuals relax a buffer in the same way. -/
theorem relax_eq_of_same {buffer : Buffer α}
    (insideSome : ∀ operator ∈ some, operator.Inside buffer.size)
    (insideOthers : ∀ operator ∈ others, operator.Inside buffer.size)
    (passes : ∀ numbers, pass settings.damping some numbers = pass settings.damping others numbers)
    (residuals : ∀ numbers, passResidual settings.damping some numbers =
      passResidual settings.damping others numbers) :
    ∃ final stats, relax settings some buffer = .ok (final, stats) ∧
      relax settings others buffer = .ok (final, stats) := by
  obtain ⟨count, final, ran, size, numbers, stops⟩ := relax_eq_ok insideSome settings
  have after : afterPasses settings.damping some = afterPasses settings.damping others := by
    funext start count
    rw [afterPasses, funext passes, afterPasses]
  have residual : residualAfter settings.damping some = residualAfter settings.damping others := by
    funext start count
    cases count with
    | zero => rfl
    | succ count => rw [residualAfter, residuals, after, residualAfter]
  have agree : StopsAfter settings others buffer.numbers settings.budget count :=
    ⟨stops.within, residual ▸ stops.calledFor, residual ▸ stops.stopped⟩
  refine ⟨final, _, ran, ?_⟩
  rw [relax_eq_of_stopsAfter insideOthers agree size (after ▸ numbers), statsAfter, statsAfter,
    residual]

end Relaxation

/-- Swapping two neighbours that are independent changes neither the numbers that a relaxation
leaves nor what it reports, whatever the settings and the numbers it starts from. -/
theorem relax_swap_of_independent [OrdersPositives α] (settings : Settings α)
    (before after : List (Operator α)) {first second : Operator α} {buffer : Buffer α}
    (inside : ∀ operator ∈ before ++ first :: second :: after, operator.Inside buffer.size)
    (independent : first.Independent second) :
    ∃ final stats,
      relax settings (before ++ first :: second :: after) buffer = .ok (final, stats) ∧
      relax settings (before ++ second :: first :: after) buffer = .ok (final, stats) := by
  have insideSwapped : ∀ operator ∈ before ++ second :: first :: after,
      operator.Inside buffer.size := by
    intro operator member
    apply inside operator
    exact ((List.Perm.swap first second after).append_left before).subset member
  apply Relaxation.relax_eq_of_same inside insideSwapped
  · exact Relaxation.pass_swap independent before after settings.damping
  · intro numbers
    exact Relaxation.passResidual_swap independent before after settings.damping numbers

/-- Two entities at one left edge. -/
def alignedPair : Operator Float := .alignNear [0, 4]

/-- The same two entities at the height of a third one. -/
def leveledPair : Operator Float := .centerOn ⟨9, 11⟩ [⟨1, 3⟩, ⟨5, 7⟩]

/-- Left edges and heights are independent, also where a frame is drawn around the third entity
before and the pair is put in a row afterwards. -/
theorem relax_swap_alignedPair :
    (∀ operator ∈ [.background 8 12 2] ++ alignedPair :: leveledPair ::
        [.stack .x [0, 4] 12 1 .center], operator.Inside 16) ∧
      alignedPair.Independent leveledPair ∧
      ∃ final stats,
        relax ⟨100, 0.1, 0.5⟩ ([.background 8 12 2] ++ alignedPair :: leveledPair ::
          [.stack .x [0, 4] 12 1 .center])
          #[3, 0, 10, 10, 5, 1, 20, 20, 7, 7, 7, 7, 0, 0, 0, 0] = .ok (final, stats) ∧
        relax ⟨100, 0.1, 0.5⟩ ([.background 8 12 2] ++ leveledPair :: alignedPair ::
          [.stack .x [0, 4] 12 1 .center])
          #[3, 0, 10, 10, 5, 1, 20, 20, 7, 7, 7, 7, 0, 0, 0, 0] = .ok (final, stats) := by
  have inside : ∀ operator ∈ [.background 8 12 2] ++ alignedPair :: leveledPair ::
      [.stack .x [0, 4] 12 1 .center], operator.Inside 16 := by
    decide
  have independent : alignedPair.Independent leveledPair := by decide
  exact ⟨inside, independent, relax_swap_of_independent _ _ _ inside independent⟩

end SceneLayout
