/-!
# Double-precision numbers

A finite double is a sign, a mantissa and a power of two. `nearest` is the one
place where an exact ratio becomes a double: reading decimals, converting whole
numbers, rounding to places and taking the length of a vector all end in it.

## Implementation notes

Every finite value made here is in canonical form: its exponent is -1074 or its
mantissa has 53 binary digits. Equality of canonical values is equality of doubles
with the sign of zero seen.
-/

namespace SceneLayout

/-- A double-precision number in the exact form that rounding and printing work on. -/
inductive Binary64 where
  | nan
  | infinity (negative : Bool)
  | finite (negative : Bool) (mantissa : Nat) (exponent : Int)
deriving DecidableEq, Inhabited

/-- The quotient rounded to a whole number; half of one goes to the even neighbour. -/
def roundHalfEven (num den : Nat) : Nat :=
  let quotient := num / den
  let remainder := num % den
  if 2 * remainder < den then quotient
  else if den < 2 * remainder then quotient + 1
  else quotient + quotient % 2

/-- A whole quotient is not rounded. -/
theorem roundHalfEven_mul (n : Nat) {den : Nat} (h : 0 < den) :
    roundHalfEven (n * den) den = n := by
  simp [roundHalfEven, Nat.mul_div_cancel n h, h]

/-- Rounding moves a quotient by half of one at most. -/
theorem roundHalfEven_near (num : Nat) {den : Nat} (h : 0 < den) :
    2 * num ≤ 2 * (den * roundHalfEven num den) + den ∧
      2 * (den * roundHalfEven num den) ≤ 2 * num + den := by
  have split := Nat.div_add_mod num den
  have small := Nat.mod_lt num h
  have up : den * (num / den + 1) = den * (num / den) + den := Nat.mul_succ den (num / den)
  unfold roundHalfEven
  by_cases below : 2 * (num % den) < den
  · simp only [below, if_true]
    omega
  · by_cases above : den < 2 * (num % den)
    · simp only [below, above, if_true, if_false, up]
      omega
    · simp only [below, above, if_false]
      rcases Nat.mod_two_eq_zero_or_one (num / den) with even | odd
      · rw [even, Nat.add_zero]
        omega
      · rw [odd, up]
        omega

/-- The ratio `num / den` divided by `base ^ exponent`, as a ratio again. -/
def scaleDown (base num den : Nat) (exponent : Int) : Nat × Nat :=
  if 0 ≤ exponent then (num, den * Nat.pow base exponent.toNat)
  else (num * Nat.pow base (-exponent).toNat, den)

namespace Binary64

/-- The exponent of the smallest positive double. -/
def leastExponent : Int := -1074

/-- The exponent of the largest finite double. -/
def greatestExponent : Int := 971

/-- One more than the largest mantissa: the first number of 54 binary digits. -/
def mantissaBound : Nat := 0x20000000000000

/-- The least mantissa of a normal double: the first number of 53 binary digits. -/
def hiddenBit : Nat := 0x10000000000000

/-- The bit of the sign. -/
def signBit : Nat := 0x8000000000000000

/-- The zero with the given sign. -/
def zero (negative : Bool) : Binary64 := .finite negative 0 leastExponent

/-- Finite values have the only form that a double has. -/
def Canonical : Binary64 → Prop
  | finite _ mantissa exponent =>
      leastExponent ≤ exponent ∧ exponent ≤ greatestExponent ∧ mantissa < mantissaBound ∧
        (exponent = leastExponent ∨ mantissaBound ≤ 2 * mantissa)
  | _ => True

/-- The exponent at which a positive ratio has a mantissa of 53 binary digits, or the least
exponent if that one is smaller. -/
def exponentOf (num den : Nat) : Int :=
  let low : Int := (num.log2 : Int) - den.log2 - 53
  let scaled := scaleDown 2 num den low
  max leastExponent (if scaled.1 < scaled.2 * mantissaBound then low else low + 1)

/-- The double with a rounded mantissa, which may have reached the bound. -/
def ofRounded (negative : Bool) (mantissa : Nat) (exponent : Int) : Binary64 :=
  if mantissa < mantissaBound then ofScaled mantissa exponent
  else ofScaled (mantissa / 2) (exponent + 1)
where
  ofScaled (mantissa : Nat) (exponent : Int) : Binary64 :=
    if exponent ≤ greatestExponent then .finite negative mantissa exponent
    else .infinity negative

/-- The double nearest to a ratio; of two equally near ones that with the even mantissa. -/
def nearest (negative : Bool) (num den : Nat) : Binary64 :=
  if num = 0 then zero negative
  else
    let exponent := exponentOf num den
    let scaled := scaleDown 2 num den exponent
    ofRounded negative (roundHalfEven scaled.1 scaled.2) exponent

/-- The magnitude `mantissa * 2 ^ exponent` as a ratio. -/
def ratio (mantissa : Nat) (exponent : Int) : Nat × Nat :=
  scaleDown 2 mantissa 1 (-exponent)

/-- The double nearest to a whole number. -/
def ofInt (n : Int) : Binary64 := nearest (decide (n < 0)) n.natAbs 1

/-- Neither infinite nor NaN. -/
def isFinite : Binary64 → Bool
  | finite .. => true
  | _ => false

/-- Zero of either sign. -/
def isZero : Binary64 → Bool
  | finite _ mantissa _ => mantissa == 0
  | _ => false

/-- Strictly below zero. -/
def isNegative : Binary64 → Bool
  | finite negative mantissa _ => negative && mantissa != 0
  | infinity negative => negative
  | nan => false

/-- Finite and equal to a whole number. -/
def isWhole : Binary64 → Bool
  | finite _ mantissa exponent =>
      let exact := ratio mantissa exponent
      exact.1 % exact.2 == 0
  | _ => false

/-- The double nearest to the value rounded to a number of decimal places, where half of the
last place goes to the even neighbour. -/
def roundToPlaces (places : Nat) : Binary64 → Binary64
  | finite negative mantissa exponent =>
      let exact := ratio mantissa exponent
      nearest negative (roundHalfEven (exact.1 * Nat.pow 10 places) exact.2) (Nat.pow 10 places)
  | x => x

/-- Reads the 64 bits of a double: sign, 11 bits of exponent, 52 bits of mantissa. -/
def ofBits (bits : Nat) : Binary64 :=
  let negative := decide (signBit ≤ bits)
  let field : Nat := bits / hiddenBit % 2048
  let fraction : Nat := bits % hiddenBit
  if field = 2047 then if fraction = 0 then .infinity negative else .nan
  else if field = 0 then .finite negative fraction leastExponent
  else .finite negative (hiddenBit + fraction) ((field : Int) - 1075)

/-- The 64 bits of a double. -/
def toBits (x : Binary64) : Nat :=
  match x with
  | nan => 2047 * hiddenBit + hiddenBit / 2
  | infinity negative => signed negative (2047 * hiddenBit)
  | finite negative mantissa exponent =>
      if mantissa < hiddenBit then signed negative mantissa
      else signed negative ((exponent + 1075).toNat * hiddenBit + (mantissa - hiddenBit))
where
  signed (negative : Bool) (bits : Nat) : Nat := if negative then signBit + bits else bits

/-- The exact form of a machine double. -/
def ofFloat (x : Float) : Binary64 := ofBits x.toBits.toNat

/-- The machine double of a canonical value. -/
def toFloat (x : Binary64) : Float := Float.ofBits (UInt64.ofNat x.toBits)

@[simp] theorem isFinite_finite (negative : Bool) (mantissa : Nat) (exponent : Int) :
    (finite negative mantissa exponent).isFinite = true := rfl

@[simp] theorem isFinite_nan : nan.isFinite = false := rfl

@[simp] theorem isFinite_infinity (negative : Bool) : (infinity negative).isFinite = false := rfl

theorem ofRounded_ne_nan (negative : Bool) (mantissa : Nat) (exponent : Int) :
    ofRounded negative mantissa exponent ≠ nan := by
  unfold ofRounded ofRounded.ofScaled
  repeat' split
  all_goals exact Binary64.noConfusion

/-- Rounding never gives a NaN. -/
theorem nearest_ne_nan (negative : Bool) (num den : Nat) : nearest negative num den ≠ nan := by
  unfold nearest
  split
  · exact Binary64.noConfusion
  · exact ofRounded_ne_nan _ _ _

end Binary64

end SceneLayout
