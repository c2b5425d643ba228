import SceneLayout.Drawing.Arrow
import SceneLayout.Layout

/-!
# The extent of a drawing

What a layout covers: every box, grown on each side by half the width of its stroke,
and the points of every arrow, grown likewise, since an arrow leaves its own box.
-/

namespace SceneLayout

universe u

variable {α : Type u} [Scalar α]

open Scalar

/-- The records by id; of records with one id the last counts. -/
def Record.byId (records : List (Record α)) : Entries (Record α) :=
  Entries.ofList (records.map fun record => (record.id, record))

namespace Record

/-- The stroke width of an arrow that none is given for. -/
def arrowStrokeWidth : α := nat 3

/-- The stroke width that the record is drawn with, if it has one. -/
def drawnStrokeWidth (record : Record α) : Option α :=
  match record.strokeWidth, record.kind with
  | some width, _ => some width
  | none, .arrow => some arrowStrokeWidth
  | none, _ => none

/-- The boxes that an arrow leads from and to, if both are in the layout. -/
def arrowEnds (record : Record α) (layout : Layout α) : Option (Box α × Box α) :=
  match boxOf record.fromId, boxOf record.toId with
  | some source, some target => some (source, target)
  | _, _ => none
where
  boxOf (id : Option String) : Option (Box α) :=
    match id with
    | some id => if id.isEmpty then none else Entries.find? layout id
    | none => none

/-- The points of an arrow of the layout, moved by an offset. -/
def arrowPoints [VectorLength α] (record : Record α) (layout : Layout α) (offset : Vec α) :
    Option (ArrowPoints α) :=
  (record.arrowEnds layout).map fun ends => .between ends.1 ends.2 offset

end Record

namespace Bounds

/-- The bounds grown on every side. -/
def grow (bounds : Bounds α) (margin : α) : Bounds α :=
  ⟨bounds.start - ⟨margin, margin⟩, bounds.finish + ⟨margin, margin⟩⟩

end Bounds

namespace Layout

/-- The bounds of a box with its stroke. -/
def boxBounds (box : Box α) (half : α) : Bounds α :=
  .ofRect (box.x - half) (box.y - half) (box.width + half * nat 2) (box.height + half * nat 2)

/-- The bounds of one entity of the layout. -/
def entityBounds [VectorLength α] (layout : Layout α) (record : Option (Record α)) (box : Box α) :
    Bounds α :=
  match record with
  | none => boxBounds box (nat 0 / nat 2)
  | some record =>
      let half := (record.drawnStrokeWidth.getD (nat 0)) / nat 2
      let own := boxBounds box half
      match record.kind with
      | .arrow =>
          match record.arrowPoints layout ⟨nat 0, nat 0⟩ with
          | some points => own.union (points.bounds.grow half)
          | none => own
      | _ => own

/-- The bounds of all entities; an empty layout covers the origin. -/
def bounds [VectorLength α] (layout : Layout α) (records : List (Record α)) : Bounds α :=
  let byId := Record.byId records
  match layout.map fun entry => entityBounds layout (Entries.find? byId entry.1) entry.2 with
  | [] => .ofPoints ⟨nat 0, nat 0⟩ []
  | first :: rest => rest.foldl Bounds.union first

end Layout

end SceneLayout
