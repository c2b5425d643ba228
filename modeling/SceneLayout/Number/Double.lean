import SceneLayout.Scalar
import SceneLayout.Number.Binary64

/-!
# Layout in doubles

Machine doubles as scalars. The length of a vector is the square root of the exact
sum of squares, rounded once; nothing overflows or vanishes on the way, and an
infinite component makes the length infinite even beside a NaN.
-/

namespace SceneLayout

/-- The largest whole number whose square is at most `n`, two binary digits of `n` at a time. -/
def floorSqrt (n : Nat) : Nat :=
  if n = 0 then 0
  else
    let half := 2 * floorSqrt (n / 4)
    if (half + 1) * (half + 1) ≤ n then half + 1 else half
termination_by n
decreasing_by omega

namespace Binary64

/-- The square root of `n * 4 ^ exponent` rounded to a double. The root is taken to at least 55
binary digits, and one more digit says whether digits were lost. -/
def sqrtNearest (n : Nat) (exponent : Int) : Binary64 :=
  let shift := 56 - n.log2 / 2
  let scaled := n * Nat.pow 4 shift
  let root := floorSqrt scaled
  let sticky := if root * root = scaled then 2 * root else 2 * root + 1
  let exact := scaleDown 2 sticky 1 (-(exponent - shift - 1))
  nearest false exact.1 exact.2

/-- The length of a vector, rounded once. -/
def hypotenuse : Binary64 → Binary64 → Binary64
  | infinity _, _ => .infinity false
  | _, infinity _ => .infinity false
  | finite _ m e, finite _ n f =>
      let least := min e f
      let a := m * Nat.pow 2 (e - least).toNat
      let b := n * Nat.pow 2 (f - least).toNat
      sqrtNearest (a * a + b * b) least
  | _, _ => .nan

end Binary64

instance : Scalar Float where
  natCast := Float.ofNat
  lt a b := decide (a < b)
  le a b := decide (a ≤ b)
  infinity? := some (Float.ofBits 0x7FF0000000000000)

instance : VectorLength Float where
  length a b := (Binary64.hypotenuse (.ofFloat a) (.ofFloat b)).toFloat

end SceneLayout
