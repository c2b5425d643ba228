import SceneLayout.Number.Binary64

/-!
# Decimal numbers

A decimal is a sign, a whole number of digits and a power of ten. It is what a
written number says before it is rounded to a double, and what a double is
turned into before it is written.
-/

namespace SceneLayout

/-- The exact number `digits * 10 ^ exponent` with a sign. -/
structure Decimal where
  negative : Bool
  digits : Nat
  exponent : Int
deriving DecidableEq

namespace Decimal

/-- The whole number that ASCII digits denote. -/
def valueOfDigits (digits : List Char) : Nat :=
  digits.foldl (fun value c => 10 * value + (c.toNat - '0'.toNat)) 0

/-- The double nearest to a decimal. Powers of ten that decide the result by themselves are not
computed: above 10 ^ 400 all positive decimals are infinite as doubles, and a decimal below
10 ^ -400 is zero. -/
def toBinary64 (d : Decimal) : Binary64 :=
  if d.digits = 0 then Binary64.zero d.negative
  else if 400 < d.exponent then .infinity d.negative
  else if d.exponent < -(400 + (d.digits.log2 : Int)) then Binary64.zero d.negative
  else
    let exact := scaleDown 10 d.digits 1 (-d.exponent)
    Binary64.nearest d.negative exact.1 exact.2

/-- Moves the last zeros of the digits into the exponent. -/
def withoutTrailingZeros (negative : Bool) (digits : Nat) (exponent : Int) : Decimal :=
  if digits = 0 then ⟨negative, 0, 0⟩
  else if digits % 10 = 0 then withoutTrailingZeros negative (digits / 10) (exponent + 1)
  else ⟨negative, digits, exponent⟩
termination_by digits
decreasing_by omega

/-- The decimal of the same value whose last digit is not zero; zero has exponent zero. -/
def normal (d : Decimal) : Decimal := withoutTrailingZeros d.negative d.digits d.exponent

end Decimal

/-- The number of digits before the point of a positive ratio; zero or less if the ratio is below
one: `10 ^ (p - 1) ≤ num / den < 10 ^ p`. -/
def decimalPosition (num den : Nat) : Int :=
  let low : Int := Int.fdiv (((num.log2 : Int) - den.log2 - 1) * 30103) 100000
  let below (p : Int) : Bool :=
    let scaled := scaleDown 10 num den p
    decide (scaled.1 < scaled.2)
  if below low then low else if below (low + 1) then low + 1 else low + 2

namespace Binary64

/-- The value rounded to a number of significant digits; half of the last digit goes to the even
neighbour. There is none unless the value is finite. -/
def toSignificant (count : Nat) : Binary64 → Option Decimal
  | finite negative mantissa exponent =>
      if mantissa = 0 then some ⟨negative, 0, 0⟩
      else
        let exact := ratio mantissa exponent
        let grid := decimalPosition exact.1 exact.2 - count
        let scaled := scaleDown 10 exact.1 exact.2 grid
        some (Decimal.mk negative (roundHalfEven scaled.1 scaled.2) grid).normal
  | _ => none

end Binary64

end SceneLayout
