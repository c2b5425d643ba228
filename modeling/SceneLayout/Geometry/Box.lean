import SceneLayout.Scalar

/-!
# Boxes

The place that an entity takes in a layout.
-/

namespace SceneLayout

universe u

/-- A rectangle with its sides along the axes. -/
structure Box (α : Type u) where
  x : α
  y : α
  width : α
  height : α

namespace Box

variable {α : Type u} [Scalar α]

/-- The far edge along the first axis. -/
def right (box : Box α) : α := box.x + box.width

/-- The far edge along the second axis. -/
def bottom (box : Box α) : α := box.y + box.height

/-- The center along the first axis. -/
def centerX (box : Box α) : α := box.x + box.width / Scalar.nat 2

/-- The center along the second axis. -/
def centerY (box : Box α) : α := box.y + box.height / Scalar.nat 2

end Box

end SceneLayout
