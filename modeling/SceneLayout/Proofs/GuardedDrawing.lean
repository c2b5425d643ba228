import SceneLayout.Drawing.Document
import SceneLayout.Proofs.Doubles
import SceneLayout.Proofs.Guarded

/-!
# Guarded drawing

Drawing divides by the lengths of arrows and takes the extremes of points. Here it is done
with every such step guarded, on any layout with any records: boxes may be missing, arrows
may have ends at one place, and lengths may be infinite or no numbers. No trap is met,
and the document is the same, if numbers above zero are told apart from zero. Doubles are.

Main statements: `document_eq_ok`, `positivesNonzero_float`.
-/

namespace SceneLayout

open Scalar

/-- A number above zero is not a zero. -/
def Scalar.PositivesNonzero (α : Type) [Scalar α] : Prop :=
  ∀ a : α, lt (nat 0) a = true → same a (nat 0) = false

namespace Guarded

variable {α : Type} [Scalar α]

/-- The bounds of points, of which there must be one. -/
def enclose (points : List (Vec α)) : Except Trap (Bounds α) := do
  let left ← leastOf (points.map Vec.x)
  let top ← leastOf (points.map Vec.y)
  let right ← greatestOf (points.map Vec.x)
  let bottom ← greatestOf (points.map Vec.y)
  return ⟨⟨left, top⟩, ⟨right, bottom⟩⟩

/-- The bounds of a box with its stroke. -/
def boxBounds (box : Box α) (half : α) : Except Trap (Bounds α) :=
  let x := box.x - half
  let y := box.y - half
  enclose [⟨x, y⟩, ⟨x + (box.width + half * nat 2), y + (box.height + half * nat 2)⟩]

theorem enclose_eq_ok (first : Vec α) (rest : List (Vec α)) :
    enclose (first :: rest) = .ok (Bounds.ofPoints first rest) := rfl

theorem boxBounds_eq_ok (box : Box α) (half : α) :
    boxBounds box half = .ok (Layout.boxBounds box half) := rfl

variable [VectorLength α]

/-- The vector of length one in the same direction. -/
def unit (v : Vec α) : Except Trap (Vec α) :=
  if same v.length (nat 0) then .ok ⟨nat 0, nat 0⟩
  else do return v.scale (← divide (nat 1) v.length)

/-- The part of an arrow of some length that its shaft takes. -/
def shaftRatio (length : α) : Except Trap α :=
  if lt (nat 0) length then divide (length - ArrowPoints.headLength) length else .ok (nat 0)

/-- The arrow between two boxes, moved by an offset. -/
def arrow (source target : Box α) (offset : Vec α) : Except Trap (ArrowPoints α) := do
  let sourceHalf ← share source.width 2
  let targetHalf ← share target.width 2
  let start : Vec α :=
    ⟨source.x + sourceHalf + offset.x, source.bottom + offset.y + ArrowPoints.clearance⟩
  let tip : Vec α :=
    ⟨target.x + targetHalf + offset.x, target.y + offset.y - ArrowPoints.clearance⟩
  let direction := tip - start
  let ratio ← shaftRatio direction.length
  let shaftEnd := start + direction.scale ratio
  let halfWidth ← share ArrowPoints.headWidth 2
  let side := (← unit direction).perp.scale halfWidth
  return ⟨start, shaftEnd, tip, shaftEnd + side, shaftEnd - side⟩

/-- The bounds of one entity of a layout. -/
def entityBounds (layout : Layout α) (record : Option (Record α)) (box : Box α) :
    Except Trap (Bounds α) :=
  match record with
  | none => do boxBounds box (← share (nat 0) 2)
  | some record => do
      let half ← share (record.drawnStrokeWidth.getD (nat 0)) 2
      let own ← boxBounds box half
      match record.kind with
      | .arrow =>
          match record.arrowEnds layout with
          | some ends =>
              let points ← arrow ends.1 ends.2 ⟨nat 0, nat 0⟩
              let drawn ←
                enclose [points.start, points.shaftEnd, points.tip, points.left, points.right]
              return own.union (drawn.grow half)
          | none => return own
      | _ => return own

/-- The bounds of all entities; an empty layout covers the origin. -/
def bounds (layout : Layout α) (records : List (Record α)) : Except Trap (Bounds α) := do
  let byId := Record.byId records
  match ← layout.mapM fun entry => entityBounds layout (Entries.find? byId entry.1) entry.2 with
  | [] => enclose [⟨nat 0, nat 0⟩]
  | first :: rest => return rest.foldl Bounds.union first

/-- The radius of a circle in its box. -/
def radius (record : Record α) (box : Box α) : Except Trap α :=
  match record.r with
  | some r => .ok r
  | none => share box.width 2

/-- The elements that a record is drawn with in its box. -/
def elements (record : Record α) (layout : Layout α) (offset : Vec α) (id : String)
    (box : Box α) : Except Trap (List (Element α)) :=
  match record.kind with
  | .none => return []
  | .circle => do
      let r ← radius record box
      return [.circle id (box.x + offset.x + r) (box.y + offset.y + r) r record.paint]
  | .text =>
      return [.text id (box.x + offset.x) (box.y + offset.y) (record.text.getD "") record.paint]
  | .arrow =>
      match record.arrowEnds layout with
      | none => return []
      | some ends => do
          let points ← arrow ends.1 ends.2 offset
          return [.line id points.start.x points.start.y points.shaftEnd.x points.shaftEnd.y
              record.paint,
            .polygon none [points.tip, points.left, points.right] record.paint]
  | .rect => do
      let width := record.outlineWidth
      let half ← share width 2
      return [.rect id (box.x + offset.x - half) (box.y + offset.y - half) (box.width + width)
        (box.height + width) record.paint]

/-- The document of a layout. -/
def document (layout : Layout α) (records : List (Record α)) (margin : α) :
    Except Trap (Document α) := do
  let byId := Record.byId records
  let bounds ← bounds layout records
  let offset : Vec α := ⟨margin - bounds.start.x, margin - bounds.start.y⟩
  let drawn ← layout.mapM fun entry =>
    match Entries.find? byId entry.1 with
    | some record => elements record layout offset entry.1 entry.2
    | none => return []
  return ⟨bounds.width + margin * nat 2, bounds.height + margin * nat 2, drawn.flatten⟩

/-! ## Drawing meets no trap -/

theorem unit_eq_ok (v : Vec α) : unit v = .ok v.unit := by
  by_cases zero : same v.length (nat 0)
  · rw [unit, if_pos zero, Vec.unit, if_pos zero]
  · rw [unit, if_neg zero, divide, if_neg zero, Vec.unit, if_neg zero]
    rfl

omit [VectorLength α] in
theorem radius_eq_ok (record : Record α) (box : Box α) :
    radius record box = .ok (record.r.getD (box.width / nat 2)) := by
  rw [radius]
  cases record.r <;> rfl

variable (apart : PositivesNonzero α)
include apart

omit [VectorLength α] in
theorem shaftRatio_eq_ok (length : α) : shaftRatio length =
    .ok (if lt (nat 0) length then (length - ArrowPoints.headLength) / length else nat 0) := by
  by_cases above : lt (nat 0) length
  · rw [shaftRatio, if_pos above, if_pos above, divide, if_neg (by simp [apart length above])]
  · rw [shaftRatio, if_neg above, if_neg above]

theorem arrow_eq_ok (source target : Box α) (offset : Vec α) :
    arrow source target offset = .ok (ArrowPoints.between source target offset) := by
  simp only [arrow, shaftRatio_eq_ok apart, unit_eq_ok]
  rfl

theorem entityBounds_eq_ok (layout : Layout α) (record : Option (Record α)) (box : Box α) :
    entityBounds layout record box = .ok (layout.entityBounds record box) := by
  cases record with
  | none => exact boxBounds_eq_ok box _
  | some record =>
      simp only [entityBounds, boxBounds_eq_ok, enclose_eq_ok, arrow_eq_ok apart,
        Layout.entityBounds, Record.arrowPoints]
      cases record.kind with
      | arrow => cases record.arrowEnds layout <;> rfl
      | _ => rfl

theorem bounds_eq_ok (layout : Layout α) (records : List (Record α)) :
    bounds layout records = .ok (layout.bounds records) := by
  have each : (layout.mapM fun entry =>
      entityBounds layout (Entries.find? (Record.byId records) entry.1) entry.2) =
      .ok (layout.map fun entry =>
        layout.entityBounds (Entries.find? (Record.byId records) entry.1) entry.2) :=
    mapM_eq_ok fun entry _ => entityBounds_eq_ok apart layout _ entry.2
  rw [bounds, each, Layout.bounds]
  cases layout.map fun entry =>
    layout.entityBounds (Entries.find? (Record.byId records) entry.1) entry.2 <;> rfl

theorem elements_eq_ok (record : Record α) (layout : Layout α) (offset : Vec α) (id : String)
    (box : Box α) :
    elements record layout offset id box = .ok (record.elements layout offset id box) := by
  simp only [elements, arrow_eq_ok apart, radius_eq_ok, Record.elements, Record.arrowPoints]
  cases record.kind with
  | arrow => cases record.arrowEnds layout <;> rfl
  | _ => rfl

/-- Every layout is drawn without a trap. -/
theorem document_eq_ok (layout : Layout α) (records : List (Record α)) (margin : α) :
    document layout records margin = .ok (layout.document records margin) := by
  have drawn : ∀ offset : Vec α, (layout.mapM fun entry =>
      match Entries.find? (Record.byId records) entry.1 with
      | some record => elements record layout offset entry.1 entry.2
      | none => return []) = .ok (layout.map fun entry =>
        match Entries.find? (Record.byId records) entry.1 with
        | some record => record.elements layout offset entry.1 entry.2
        | none => []) := by
    intro offset
    apply mapM_eq_ok
    intro entry _
    cases Entries.find? (Record.byId records) entry.1 with
    | none => rfl
    | some record => exact elements_eq_ok apart record layout offset entry.1 entry.2
  simp only [document, bounds_eq_ok apart, drawn, bind, Except.bind, Layout.document,
    List.flatMap_def]
  rfl

end Guarded

/-! ## Doubles -/

/-- A double above zero is positive and finite, or it is infinite; no zero is, and no NaN. -/
theorem positivesNonzero_float : PositivesNonzero Float := by
  intro a above
  rw [lt_eq_compare, unpack_zero] at above
  rw [same, le_eq_compare, unpack_zero]
  cases unpacked : a.toModel.unpack with
  | notANumber | zero =>
      rw [unpacked] at above
      cases above
  | infinity sign | finite sign =>
      cases sign with
      | positive => rfl
      | negative =>
          rw [unpacked] at above
          cases above

end SceneLayout
