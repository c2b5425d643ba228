/-!
# Axes and alignments

An entity has four numbers in a buffer: its position along both axes, then its
extent along both. An axis says at which of the four its own two numbers stand.
-/

namespace SceneLayout

/-- One of the two directions of the plane; the second one points down. -/
inductive Axis where
  | x
  | y
deriving DecidableEq, Inhabited

namespace Axis

/-- Where the position along the axis stands among the numbers of an entity. -/
def position : Axis → Nat
  | x => 0
  | y => 1

/-- Where the extent along the axis stands among the numbers of an entity. -/
def extent : Axis → Nat
  | x => 2
  | y => 3

/-- The other axis. -/
def cross : Axis → Axis
  | x => y
  | y => x

/-- The one-letter name. -/
def name : Axis → String
  | x => "x"
  | y => "y"

@[simp] theorem cross_cross (axis : Axis) : axis.cross.cross = axis := by
  cases axis <;> rfl

theorem position_lt (axis : Axis) : axis.position < 4 := by
  cases axis <;> decide

theorem extent_lt (axis : Axis) : axis.extent < 4 := by
  cases axis <;> decide

end Axis

/-- Where entities meet along an axis: near edges, centers or far edges. -/
inductive Alignment where
  | start
  | center
  | finish
deriving DecidableEq, Inhabited

end SceneLayout
