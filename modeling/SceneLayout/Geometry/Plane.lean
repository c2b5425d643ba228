import SceneLayout.Scalar

/-!
# Points and bounds in the plane

Vectors with the operations that drawing needs, and the bounds that enclose points.
-/

namespace SceneLayout

universe u

/-- A point of the plane, or the way from one point to another. -/
structure Vec (α : Type u) where
  x : α
  y : α

namespace Vec

variable {α : Type u} [Scalar α]

instance : Add (Vec α) := ⟨fun v w => ⟨v.x + w.x, v.y + w.y⟩⟩

instance : Sub (Vec α) := ⟨fun v w => ⟨v.x - w.x, v.y - w.y⟩⟩

/-- The vector stretched by a factor. -/
def scale (v : Vec α) (factor : α) : Vec α := ⟨v.x * factor, v.y * factor⟩

/-- The length of the vector. -/
def length [VectorLength α] (v : Vec α) : α := VectorLength.length v.x v.y

/-- The vector turned by a quarter. -/
def perp (v : Vec α) : Vec α := ⟨-v.y, v.x⟩

/-- The vector of length one in the same direction; a vector without length gives the zero
vector. -/
def unit [VectorLength α] (v : Vec α) : Vec α :=
  if Scalar.same v.length (Scalar.nat 0) then ⟨Scalar.nat 0, Scalar.nat 0⟩
  else v.scale (Scalar.nat 1 / v.length)

@[simp] theorem add_x (v w : Vec α) : (v + w).x = v.x + w.x := rfl

@[simp] theorem add_y (v w : Vec α) : (v + w).y = v.y + w.y := rfl

@[simp] theorem sub_x (v w : Vec α) : (v - w).x = v.x - w.x := rfl

@[simp] theorem sub_y (v w : Vec α) : (v - w).y = v.y - w.y := rfl

end Vec

/-- The least and the greatest coordinates of what is enclosed. -/
structure Bounds (α : Type u) where
  start : Vec α
  finish : Vec α

namespace Bounds

variable {α : Type u} [Scalar α]

/-- The bounds of one point or more. -/
def ofPoints (first : Vec α) (rest : List (Vec α)) : Bounds α where
  start := ⟨Scalar.least first.x (rest.map Vec.x), Scalar.least first.y (rest.map Vec.y)⟩
  finish := ⟨Scalar.greatest first.x (rest.map Vec.x), Scalar.greatest first.y (rest.map Vec.y)⟩

/-- The bounds of a list of points, of which there must be one. -/
def ofPoints? : List (Vec α) → Option (Bounds α)
  | [] => none
  | first :: rest => some (ofPoints first rest)

/-- The bounds of a rectangle, whose extents may be negative. -/
def ofRect (x y width height : α) : Bounds α :=
  ofPoints ⟨x, y⟩ [⟨x + width, y + height⟩]

/-- The bounds of what two bounds enclose. -/
def union (first second : Bounds α) : Bounds α where
  start :=
    ⟨Scalar.least first.start.x [second.start.x], Scalar.least first.start.y [second.start.y]⟩
  finish :=
    ⟨Scalar.greatest first.finish.x [second.finish.x],
      Scalar.greatest first.finish.y [second.finish.y]⟩

/-- The extent along the first axis. -/
def width (bounds : Bounds α) : α := bounds.finish.x - bounds.start.x

/-- The extent along the second axis. -/
def height (bounds : Bounds α) : α := bounds.finish.y - bounds.start.y

end Bounds

end SceneLayout
