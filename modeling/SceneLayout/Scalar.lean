/-!
# Numbers that scenes are measured in

Layout is written once for every kind of number: doubles when a scene is drawn,
exact rationals or reals when it is reasoned about. `Scalar` names the operations
that layout uses and states no law, so that what is proved from `Scalar` alone
holds of doubles too, rounding and NaN included.

## Implementation notes

Comparisons are Boolean tests of their own and not an order: on doubles neither
test is the negation of the other. `least` and `greatest` keep the first extreme
that they meet, which only such tests can tell from a later equal one.
-/

namespace SceneLayout

universe u

/-- Arithmetic and comparisons, without laws. -/
class Scalar (α : Type u) extends Add α, Sub α, Mul α, Div α, Neg α, NatCast α where
  /-- The first number is strictly below the second. -/
  lt : α → α → Bool
  /-- The first number is at most the second. -/
  le : α → α → Bool
  /-- The number above all others, where there is one. -/
  infinity? : Option α

/-- The length of the vector with the given components. -/
class VectorLength (α : Type u) where
  length : α → α → α

namespace Scalar

variable {α : Type u} [Scalar α]

/-- A whole number as a scalar. -/
abbrev nat (n : Nat) : α := (n : α)

/-- Two numbers of equal value; a NaN has none. -/
def same (a b : α) : Bool := le a b && le b a

/-- The number without its sign. -/
def magnitude (a : α) : α := if lt a (nat 0) then -a else a

/-- The first of the numbers that none of the later ones is below. -/
def least (first : α) (rest : List α) : α :=
  rest.foldl (fun best a => if lt a best then a else best) first

/-- The first of the numbers that none of the later ones is above. -/
def greatest (first : α) (rest : List α) : α :=
  rest.foldl (fun best a => if lt best a then a else best) first

@[simp] theorem least_nil (a : α) : least a [] = a := rfl

theorem least_cons (a b : α) (rest : List α) :
    least a (b :: rest) = least (if lt b a then b else a) rest := rfl

@[simp] theorem greatest_nil (a : α) : greatest a [] = a := rfl

theorem greatest_cons (a b : α) (rest : List α) :
    greatest a (b :: rest) = greatest (if lt a b then b else a) rest := rfl

end Scalar

end SceneLayout
