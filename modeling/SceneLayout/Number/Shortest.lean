import SceneLayout.Number.Decimal

/-!
# Shortest decimals of doubles

The decimal written for a double is one with the fewest digits among those that
read back as the double, and of these the nearest to it. A grid of `n` digits has
two candidates, the neighbours of the value on the grid; the first grid with a
candidate that reads back gives the decimal.

## Implementation notes

That a candidate reads back is tested by reading it back. The exact expansion of
the double stands behind the search, so that the result reads back whether or
not a grid is found; seventeen digits always suffice.
-/

namespace SceneLayout.Binary64

/-- The neighbours of a ratio among the multiples of `10 ^ grid`, the nearer one first. -/
def gridNeighbours (num den : Nat) (grid : Int) : List Nat :=
  let scaled := scaleDown 10 num den grid
  let below := scaled.1 / scaled.2
  if roundHalfEven scaled.1 scaled.2 = below then [below, below + 1] else [below + 1, below]

/-- The decimal with all digits of `mantissa * 2 ^ exponent`. -/
def expansion (negative : Bool) (mantissa : Nat) (exponent : Int) : Decimal :=
  if 0 ≤ exponent then ⟨negative, mantissa * Nat.pow 2 exponent.toNat, 0⟩
  else ⟨negative, mantissa * Nat.pow 5 (-exponent).toNat, exponent⟩

/-- The decimals on the grids of one to seventeen digits that may be written for the value. -/
def shortestCandidates (negative : Bool) (num den : Nat) : List Decimal :=
  let position := decimalPosition num den
  (List.range 17).flatMap fun i =>
    let grid := position - (i + 1 : Nat)
    (gridNeighbours num den grid).map fun digits => ⟨negative, digits, grid⟩

/-- The shortest decimal that reads back as the value. There is none unless it is finite. -/
def shortest : Binary64 → Option Decimal
  | x@(finite negative mantissa exponent) =>
      if mantissa = 0 then some ⟨negative, 0, 0⟩
      else
        let exact := ratio mantissa exponent
        let found := (shortestCandidates negative exact.1 exact.2).find? fun d => d.toBinary64 == x
        some (found.getD (expansion negative mantissa exponent)).normal
  | _ => none

end SceneLayout.Binary64
