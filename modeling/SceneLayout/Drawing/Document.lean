import SceneLayout.Drawing.Extent

/-!
# Documents

A document is a page and the elements on it, in absolute coordinates. The layout is
moved so that what it covers begins at the margin on both axes.
-/

namespace SceneLayout

universe u

/-- How an element is painted; what is not given is left out of the drawing. -/
structure Paint (α : Type u) where
  fill : Option String
  stroke : Option String
  strokeWidth : Option α

/-- An element of a document. -/
inductive Element (α : Type u) where
  | rect (id : String) (x y width height : α) (paint : Paint α)
  | circle (id : String) (cx cy r : α) (paint : Paint α)
  | text (id : String) (x y : α) (content : String) (paint : Paint α)
  | line (id : String) (x1 y1 x2 y2 : α) (paint : Paint α)
  | polygon (id : Option String) (points : List (Vec α)) (paint : Paint α)

/-- A page with its elements. -/
structure Document (α : Type u) where
  width : α
  height : α
  elements : List (Element α)

variable {α : Type u} [Scalar α]

open Scalar

namespace Record

/-- The paint of a record: shapes are not filled, texts are black, strokes are black. -/
def paint (record : Record α) : Paint α where
  fill := some (record.fill.getD (if record.kind = .text then "black" else "none"))
  stroke := some (record.stroke.getD "black")
  strokeWidth := record.drawnStrokeWidth

/-- The stroke width that a rectangle is grown by; a zero of either sign grows it by zero. -/
def outlineWidth (record : Record α) : α :=
  match record.strokeWidth with
  | some width => if same width (nat 0) then nat 0 else width
  | none => nat 0

/-- The elements that a record is drawn with in its box. -/
def elements [VectorLength α] (record : Record α) (layout : Layout α) (offset : Vec α) (id : String)
    (box : Box α) : List (Element α) :=
  match record.kind with
  | .none => []
  | .circle =>
      let r := record.r.getD (box.width / nat 2)
      [.circle id (box.x + offset.x + r) (box.y + offset.y + r) r record.paint]
  | .text => [.text id (box.x + offset.x) (box.y + offset.y) (record.text.getD "") record.paint]
  | .arrow =>
      match record.arrowPoints layout offset with
      | none => []
      | some points =>
          [.line id points.start.x points.start.y points.shaftEnd.x points.shaftEnd.y record.paint,
            .polygon none [points.tip, points.left, points.right] record.paint]
  | .rect =>
      let width := record.outlineWidth
      [.rect id (box.x + offset.x - width / nat 2) (box.y + offset.y - width / nat 2)
        (box.width + width) (box.height + width) record.paint]

end Record

namespace Layout

/-- The document of a layout. Entities without a record are not drawn, but they count for the page,
as do those of no kind; arrows without both ends are left out. -/
def document [VectorLength α] (layout : Layout α) (records : List (Record α)) (margin : α) :
    Document α :=
  let byId := Record.byId records
  let bounds := Layout.bounds layout records
  let offset : Vec α := ⟨margin - bounds.start.x, margin - bounds.start.y⟩
  { width := bounds.width + margin * nat 2
    height := bounds.height + margin * nat 2
    elements := layout.flatMap fun entry =>
      match Entries.find? byId entry.1 with
      | some record => record.elements layout offset entry.1 entry.2
      | none => [] }

end Layout

end SceneLayout
