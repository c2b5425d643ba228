import SceneLayout.Geometry.Box
import SceneLayout.Geometry.Plane

/-!
# Arrows

An arrow leaves its source below the center and points at its target above the
center, and keeps clear of both. Its head is a triangle on the end of the shaft.
-/

namespace SceneLayout

universe u

/-- The points that an arrow is drawn through. -/
structure ArrowPoints (α : Type u) where
  start : Vec α
  shaftEnd : Vec α
  tip : Vec α
  left : Vec α
  right : Vec α

namespace ArrowPoints

variable {α : Type u} [Scalar α]

open Scalar

/-- The gap between an arrow and the boxes it joins. -/
def clearance : α := nat 5

/-- The length of an arrow head. -/
def headLength : α := nat 6

/-- The width of an arrow head, three fifths of its length. -/
def headWidth : α := headLength * (nat 3 / nat 5)

/-- The arrow between two boxes, moved by an offset. -/
def between [VectorLength α] (source target : Box α) (offset : Vec α) : ArrowPoints α :=
  let start : Vec α := ⟨source.centerX + offset.x, source.bottom + offset.y + clearance⟩
  let tip : Vec α := ⟨target.centerX + offset.x, target.y + offset.y - clearance⟩
  let direction := tip - start
  let length := direction.length
  let ratio := if lt (nat 0) length then (length - headLength) / length else nat 0
  let shaftEnd := start + direction.scale ratio
  let side := direction.unit.perp.scale (headWidth / nat 2)
  { start := start, shaftEnd := shaftEnd, tip := tip
    left := shaftEnd + side, right := shaftEnd - side }

/-- The bounds of the points. -/
def bounds (points : ArrowPoints α) : Bounds α :=
  Bounds.ofPoints points.start [points.shaftEnd, points.tip, points.left, points.right]

end ArrowPoints

end SceneLayout
