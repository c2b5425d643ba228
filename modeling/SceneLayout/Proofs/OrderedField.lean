import Mathlib.Algebra.Order.Field.Basic
import Mathlib.Data.List.MinMax
import Mathlib.Order.Bounds.Basic
import SceneLayout.Scalar

/-!
# Exact arithmetic

Every linearly ordered field is a kind of exact numbers: the rationals, and also the reals,
in which vectors have their true lengths.

Main statements: `isLeast_least`, `isGreatest_greatest`.
-/

namespace SceneLayout.OrderedField

universe u

variable {K : Type u} [Field K] [LinearOrder K]

open Scalar

/-- The arithmetic and the order of a field; no number is above all others. -/
scoped instance : Scalar K where
  lt a b := decide (a < b)
  le a b := decide (a ≤ b)
  infinity? := none

@[simp] theorem lt_iff {a b : K} : lt a b = true ↔ a < b := decide_eq_true_iff

@[simp] theorem le_iff {a b : K} : le a b = true ↔ a ≤ b := decide_eq_true_iff

theorem nat_eq (n : Nat) : (nat n : K) = (n : K) := rfl

theorem same_iff {a b : K} : same a b = true ↔ a = b := by
  rw [same, Bool.and_eq_true, le_iff, le_iff]
  exact le_antisymm_iff.symm

theorem min?_eq_least (first : K) (rest : List K) :
    (first :: rest).min? = some (least first rest) := by
  rw [List.min?_cons']
  congr 1
  apply List.foldl_ext
  intro best a _
  by_cases below : a < best
  · rw [if_pos (lt_iff.mpr below), min_eq_right below.le]
  · rw [if_neg (fun h => below (lt_iff.mp h)), min_eq_left (not_lt.mp below)]

theorem max?_eq_greatest (first : K) (rest : List K) :
    (first :: rest).max? = some (greatest first rest) := by
  rw [List.max?_cons']
  congr 1
  apply List.foldl_ext
  intro best a _
  by_cases above : best < a
  · rw [if_pos (lt_iff.mpr above), max_eq_right above.le]
  · rw [if_neg (fun h => above (lt_iff.mp h)), max_eq_left (not_lt.mp above)]

theorem isLeast_least (first : K) (rest : List K) :
    IsLeast {a | a ∈ first :: rest} (least first rest) :=
  List.min?_eq_some_iff.mp (min?_eq_least first rest)

theorem isGreatest_greatest (first : K) (rest : List K) :
    IsGreatest {a | a ∈ first :: rest} (greatest first rest) :=
  List.max?_eq_some_iff.mp (max?_eq_greatest first rest)

theorem setOf_mem_pair {β : Type*} (a b : β) : {c | c ∈ [a, b]} = {a, b} := by
  ext c
  simp

theorem isLeast_union {a b : K} {some others : Set K} (first : IsLeast some a)
    (second : IsLeast others b) : IsLeast (some ∪ others) (least a [b]) := by
  have pair : least a [b] = min a b :=
    (setOf_mem_pair a b ▸ isLeast_least a [b]).unique isLeast_pair
  rw [pair]
  exact first.union second

theorem isGreatest_union {a b : K} {some others : Set K} (first : IsGreatest some a)
    (second : IsGreatest others b) : IsGreatest (some ∪ others) (greatest a [b]) := by
  have pair : greatest a [b] = max a b :=
    (setOf_mem_pair a b ▸ isGreatest_greatest a [b]).unique isGreatest_pair
  rw [pair]
  exact first.union second

end SceneLayout.OrderedField
