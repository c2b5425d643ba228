import Mathlib.Data.List.Nodup
import SceneLayout.Proofs.Exact
import SceneLayout.Proofs.Spanning

/-!
# The page

The document of a layout moves what the layout covers to the margin and makes the page as
large as that and the margin need. Elements are computed on another path than what is
covered, yet they stay inside the margins, with their strokes.

## Implementation notes

The stroke is added to the extents of a box before its corners are put in order, so a box
with a negative extent gets smaller by it. Rectangles and circles are drawn between the same
corners; a text is anchored at the position of its box, which then can be left outside.

Main statements: `document_keeps_margin`, `reversedNote_leaves_page`.
-/

namespace SceneLayout

universe u

variable {K : Type u} [Field K] [LinearOrder K]

open OrderedField Scalar

omit [Field K] [LinearOrder K] in
@[ext] theorem Vec.ext {v w : Vec K} (x : v.x = w.x) (y : v.y = w.y) : v = w := by
  cases v
  cases w
  cases x
  cases y
  rfl

/-- The point stays inside the bounds when it is moved along both axes, back and forth. -/
def Bounds.ContainsAround (bounds : Bounds K) (point : Vec K) (reach : K) : Prop :=
  ∀ moved ∈ point.around reach, bounds.Contains moved

/-- Both corners of a box with its stroke are inside the bounds when they are moved. -/
structure Bounds.ContainsCorners (bounds : Bounds K) (box : Box K) (half : K) (offset : Vec K) :
    Prop where
  near : bounds.Contains (⟨box.x - half, box.y - half⟩ + offset)
  far : bounds.Contains (⟨box.right + half, box.bottom + half⟩ + offset)

/-- The element stays inside an area: a rectangle with both corners, a circle that fills its box
and all points of lines and polygons with their strokes, and a text with its anchor, except beyond
the far sides if its box goes back by more than half the stroke. -/
def Element.KeepsTo (layout : Layout K) (area : Bounds K) : Element K → Prop
  | .rect _ x y width height _ => area.Contains ⟨x, y⟩ ∧ area.Contains ⟨x + width, y + height⟩
  | .circle id cx cy r paint => ∀ box, (id, box) ∈ layout → box.width = nat 2 * r →
      box.height = nat 2 * r → area.ContainsAround ⟨cx, cy⟩ (r + paint.halfStroke)
  | .text id x y _ paint => area.start.x ≤ x ∧ area.start.y ≤ y ∧
      ∀ box, (id, box) ∈ layout →
        (paint.halfStroke = 0 ∨ -paint.halfStroke ≤ box.width → x ≤ area.finish.x) ∧
        (paint.halfStroke = 0 ∨ -paint.halfStroke ≤ box.height → y ≤ area.finish.y)
  | .line _ x1 y1 x2 y2 paint => area.ContainsAround ⟨x1, y1⟩ paint.halfStroke ∧
      area.ContainsAround ⟨x2, y2⟩ paint.halfStroke
  | .polygon _ points paint => ∀ point ∈ points, area.ContainsAround point paint.halfStroke

/-- The elements of a layout that is moved by an offset. -/
def Layout.drawn [VectorLength K] (layout : Layout K) (records : List (Record K))
    (offset : Vec K) : List (Element K) :=
  layout.flatMap fun entry =>
    match Entries.find? (Record.byId records) entry.1 with
    | some record => record.elements layout offset entry.1 entry.2
    | none => []

namespace Vec

theorem add_right_comm (u v w : Vec K) : u + v + w = u + w + v := by
  ext <;> simp only [add_x, add_y] <;> ring

theorem add_sub_right_comm (u v w : Vec K) : u + v - w = u - w + v := by
  ext <;> simp only [add_x, add_y, sub_x, sub_y] <;> ring

theorem add_sub_add_right (u v w : Vec K) : u + w - (v + w) = u - v := by
  ext <;> simp

theorem around_add (point offset : Vec K) (reach : K) :
    (point + offset).around reach = (point.around reach).map (· + offset) := by
  simp only [around, add_sub_right_comm point offset, add_right_comm point offset, List.map_cons,
    List.map_nil]

end Vec

/-- An arrow moves with the boxes that it joins. -/
theorem ArrowPoints.all_between [VectorLength K] (source target : Box K) (offset : Vec K) :
    (between source target offset).all =
      (between source target ⟨0, 0⟩).all.map (· + offset) := by
  have start : (⟨source.centerX + offset.x, source.bottom + offset.y + clearance⟩ : Vec K) =
      ⟨source.centerX + 0, source.bottom + 0 + clearance⟩ + offset := by
    ext <;> simp only [Vec.add_x, Vec.add_y] <;> ring
  have tip : (⟨target.centerX + offset.x, target.y + offset.y - clearance⟩ : Vec K) =
      ⟨target.centerX + 0, target.y + 0 - clearance⟩ + offset := by
    ext <;> simp only [Vec.add_x, Vec.add_y] <;> ring
  have plus (v w : Vec K) : v + offset + w = v + w + offset := Vec.add_right_comm v offset w
  have minus (v w : Vec K) : v + offset - w = v - w + offset := Vec.add_sub_right_comm v offset w
  simp only [between, all, start, tip, Vec.add_sub_add_right]
  simp only [plus, minus, List.map_cons, List.map_nil]

namespace Bounds.ContainsCorners

variable {area : Bounds K} {box : Box K} {half : K} {offset : Vec K}
  (h : area.ContainsCorners box half offset)
include h

/-- A circle that fills the box touches its corners with the stroke. -/
theorem center {r : K} (across : box.width = nat 2 * r) (along : box.height = nat 2 * r) :
    area.ContainsAround ⟨box.x + offset.x + r, box.y + offset.y + r⟩ (r + half) := by
  intro moved around
  rcases List.mem_pair.mp around with rfl | rfl
  · convert h.near using 1
    ext <;> simp only [Vec.add_x, Vec.add_y, Vec.sub_x, Vec.sub_y] <;> ring
  · convert h.far using 1
    ext <;> simp only [Vec.add_x, Vec.add_y, Box.right, Box.bottom, across, along] <;>
      push_cast <;> ring

variable [IsStrictOrderedRing K]

/-- A rectangle that is grown by the stroke has its corners. -/
theorem outline {width : K} (stroke : width / 2 = half) :
    area.Contains ⟨box.x + offset.x - width / nat 2, box.y + offset.y - width / nat 2⟩ ∧
      area.Contains ⟨box.x + offset.x - width / nat 2 + (box.width + width),
        box.y + offset.y - width / nat 2 + (box.height + width)⟩ := by
  subst stroke
  constructor
  · convert h.near using 1
    ext <;> simp only [Vec.add_x, Vec.add_y] <;> push_cast <;> ring
  · convert h.far using 1
    ext <;> simp only [Vec.add_x, Vec.add_y, Box.right, Box.bottom] <;> push_cast <;> ring

theorem start_le (nonneg : 0 ≤ half) :
    area.start.x ≤ box.x + offset.x ∧ area.start.y ≤ box.y + offset.y := by
  have left : area.start.x ≤ box.x - half + offset.x := h.near.left
  have top : area.start.y ≤ box.y - half + offset.y := h.near.top
  constructor <;> linarith

theorem x_le_finish (wide : half = 0 ∨ -half ≤ box.width) :
    box.x + offset.x ≤ area.finish.x := by
  rcases wide with rfl | wide
  · have near : box.x - 0 + offset.x ≤ area.finish.x := h.near.right
    linarith
  · have far : box.x + box.width + half + offset.x ≤ area.finish.x := h.far.right
    linarith

theorem y_le_finish (high : half = 0 ∨ -half ≤ box.height) :
    box.y + offset.y ≤ area.finish.y := by
  rcases high with rfl | high
  · have near : box.y - 0 + offset.y ≤ area.finish.y := h.near.bottom
    linarith
  · have far : box.y + box.height + half + offset.y ≤ area.finish.y := h.far.bottom
    linarith

end Bounds.ContainsCorners

namespace Record

theorem outlineWidth_eq (record : Record K) :
    record.outlineWidth = record.strokeWidth.getD 0 := by
  rcases given : record.strokeWidth with _ | width
  · simp [outlineWidth, given]
  · by_cases zero : width = 0 <;> simp [outlineWidth, given, zero, same_iff]

theorem drawnStrokeWidth_of_ne {record : Record K} (h : record.kind ≠ .arrow) :
    record.drawnStrokeWidth = record.strokeWidth := by
  rcases given : record.strokeWidth with _ | width
  · simp [drawnStrokeWidth, given]
  · simp [drawnStrokeWidth, given]

theorem halfStroke_nonneg [IsStrictOrderedRing K] {record : Record K}
    (h : ∀ width ∈ record.strokeWidth, 0 ≤ width) : 0 ≤ record.paint.halfStroke := by
  have drawn : 0 ≤ record.drawnStrokeWidth.getD 0 := by
    rcases given : record.strokeWidth with _ | width
    · by_cases arrow : record.kind = .arrow <;>
        simp [drawnStrokeWidth, arrowStrokeWidth, given, arrow]
    · simpa [drawnStrokeWidth, given] using h width given
  exact div_nonneg drawn zero_le_two

section Placed

variable [VectorLength K] {layout : Layout K} {records : List (Record K)} {offset : Vec K}
  {area : Bounds K} {id : String} {box : Box K} {record : Record K}
  (spans : area.Spans ((· + offset) '' layout.outline records)) (member : (id, box) ∈ layout)
  (found : Entries.find? (Record.byId records) id = some record)
include spans member found

theorem contains_of_mem_entityOutline {point : Vec K}
    (outlined : point ∈ layout.entityOutline (some record) box) :
    area.Contains (point + offset) := by
  refine spans.contains ⟨point, ⟨(id, box), member, ?_⟩, rfl⟩
  rw [found]
  exact outlined

theorem containsCorners : area.ContainsCorners box record.paint.halfStroke offset where
  near := contains_of_mem_entityOutline spans member found
    (List.mem_append_left _ List.mem_cons_self)
  far := contains_of_mem_entityOutline spans member found
    (List.mem_append_left _ (by simp [Box.corners]))

theorem containsAround_of_mem_all (arrow : record.kind = .arrow) {source target : Box K}
    (ends : record.arrowEnds layout = some (source, target)) :
    ∀ point ∈ (ArrowPoints.between source target offset).all,
      area.ContainsAround point record.paint.halfStroke := by
  intro point among moved around
  rw [ArrowPoints.all_between] at among
  obtain ⟨still, drawn, rfl⟩ := List.mem_map.mp among
  rw [Vec.around_add] at around
  obtain ⟨outer, outlined, rfl⟩ := List.mem_map.mp around
  apply contains_of_mem_entityOutline spans member found
  apply List.mem_append_right
  simp only [arrow, if_true, arrowPoints, ends, Option.map_some, Option.toList_some,
    List.flatMap_singleton, List.mem_flatMap]
  exact ⟨still, drawn, outlined⟩

/-- What a record is drawn with stays inside an area that the outline of the layout spans. -/
theorem keepsTo_of_mem_elements [IsStrictOrderedRing K] (distinct : (Entries.keys layout).Nodup)
    (nonneg : 0 ≤ record.paint.halfStroke) :
    ∀ element ∈ record.elements layout offset id box, element.KeepsTo layout area := by
  intro element drawn
  have corners := containsCorners spans member found
  have only : ∀ other, (id, other) ∈ layout → other = box := fun other listed =>
    congrArg Prod.snd (List.inj_on_of_nodup_map distinct listed member rfl)
  cases kind : record.kind with
  | none => simp [elements, kind] at drawn
  | rect =>
      simp only [elements, kind, List.mem_singleton] at drawn
      subst drawn
      apply corners.outline
      have drawnWidth : record.drawnStrokeWidth = record.strokeWidth :=
        drawnStrokeWidth_of_ne (by simp [kind])
      rw [outlineWidth_eq, ← drawnWidth]
      rfl
  | circle =>
      simp only [elements, kind, List.mem_singleton] at drawn
      subst drawn
      intro other listed across along
      cases only other listed
      exact corners.center across along
  | text =>
      simp only [elements, kind, List.mem_singleton] at drawn
      subst drawn
      refine ⟨(corners.start_le nonneg).1, (corners.start_le nonneg).2, ?_⟩
      intro other listed
      cases only other listed
      exact ⟨corners.x_le_finish, corners.y_le_finish⟩
  | arrow =>
      cases ends : record.arrowEnds layout with
      | none => simp [elements, kind, arrowPoints, ends] at drawn
      | some pair =>
          have around := containsAround_of_mem_all spans member found kind ends
          simp only [elements, kind, arrowPoints, ends, Option.map_some, List.mem_pair] at drawn
          rcases drawn with rfl | rfl
          · exact ⟨around _ (by simp [ArrowPoints.all]), around _ (by simp [ArrowPoints.all])⟩
          · intro point among
            apply around
            simp only [ArrowPoints.all, List.mem_cons] at among ⊢
            tauto

end Placed

end Record

/-- The page without its margins. -/
def Document.inner (document : Document K) (margin : K) : Bounds K :=
  ⟨⟨margin, margin⟩, ⟨document.width - margin, document.height - margin⟩⟩

/-- The elements of a document are those of the layout moved by an offset, and none leaves the
page without its margins, which the corners of the moved boxes and the points of the moved arrows,
all with their strokes, reach on every side. -/
theorem document_keeps_margin [IsStrictOrderedRing K] [VectorLength K] {layout : Layout K}
    {records : List (Record K)} (nonempty : layout ≠ []) (distinct : (Entries.keys layout).Nodup)
    (strokes : ∀ record ∈ records, ∀ width ∈ record.strokeWidth, 0 ≤ width) (margin : K) :
    ∃ offset : Vec K,
      (layout.document records margin).elements = layout.drawn records offset ∧
      ((layout.document records margin).inner margin).Spans
        ((· + offset) '' layout.outline records) ∧
      ∀ element ∈ (layout.document records margin).elements,
        element.KeepsTo layout ((layout.document records margin).inner margin) := by
  have nonneg : ∀ record ∈ records, 0 ≤ record.paint.halfStroke := fun record member =>
    Record.halfStroke_nonneg (strokes record member)
  have moved : (layout.document records margin).elements = layout.drawn records
      ⟨margin - (layout.bounds records).start.x, margin - (layout.bounds records).start.y⟩ := rfl
  have spans : ((layout.document records margin).inner margin).Spans
      ((· + ⟨margin - (layout.bounds records).start.x, margin - (layout.bounds records).start.y⟩) ''
        layout.outline records) := by
    convert (Layout.spans_bounds nonempty nonneg).move _ using 1
    simp only [Document.inner, Layout.document, Bounds.width, Bounds.height, Bounds.mk.injEq]
    constructor <;> ext <;> simp only [Vec.add_x, Vec.add_y] <;> push_cast <;> ring
  refine ⟨_, moved, spans, ?_⟩
  intro element drawn
  rw [moved] at drawn
  obtain ⟨⟨id, box⟩, member, drawn⟩ := List.mem_flatMap.mp drawn
  cases found : Entries.find? (Record.byId records) id with
  | none => simp [found] at drawn
  | some record =>
      simp only [found] at drawn
      exact Record.keepsTo_of_mem_elements spans member found distinct
        (nonneg record (Record.mem_of_find?_byId found)) element drawn

/-- Rationals have no square roots; the sum of the components is a length that they have. -/
local instance : VectorLength ℚ := ⟨fun x y => |x| + |y|⟩

/-- A circle that fills its box, a note below it, an arrow between the two and a frame. -/
def labelledDisc : Layout ℚ :=
  [("disc", ⟨0, 0, 10, 10⟩), ("note", ⟨-4, 30, 18, 8⟩), ("link", ⟨0, 0, 0, 0⟩),
    ("frame", ⟨-6, -2, 22, 42⟩)]

/-- What is drawn for the circle, the note, the arrow and the frame. -/
def labelledDiscRecords : List (Record ℚ) :=
  [{ id := "disc", kind := .circle, x := 0, y := 0, width := 10, height := 10, r := some 5 },
    { id := "note", kind := .text, x := 0, y := 0, width := 18, height := 8, text := some "disc",
      strokeWidth := some 1 },
    { id := "link", kind := .arrow, x := 0, y := 0, width := 0, height := 0,
      fromId := some "disc", toId := some "note" },
    { id := "frame", kind := .rect, x := 0, y := 0, width := 22, height := 42,
      strokeWidth := some 2 }]

theorem labelledDisc_keeps_margin :
    ∃ offset : Vec ℚ,
      (labelledDisc.document labelledDiscRecords 4).elements =
        labelledDisc.drawn labelledDiscRecords offset ∧
      ((labelledDisc.document labelledDiscRecords 4).inner 4).Spans
        ((· + offset) '' labelledDisc.outline labelledDiscRecords) ∧
      ∀ element ∈ (labelledDisc.document labelledDiscRecords 4).elements,
        element.KeepsTo labelledDisc ((labelledDisc.document labelledDiscRecords 4).inner 4) :=
  document_keeps_margin (by decide) (by decide) (by decide) 4

/-- A box that goes back further than half the stroke of its note goes out. -/
def reversedNote : Layout ℚ := [("note", ⟨0, 0, -10, 10⟩)]

/-- The note in a box that goes back. -/
def reversedNoteRecord : Record ℚ :=
  { id := "note", kind := .text, x := 0, y := 0, width := -10, height := 10, text := some "hi",
    strokeWidth := some 2 }

/-- The note is anchored at nine, on a page that ends at eight. -/
theorem reversedNote_leaves_page :
    (reversedNote.document [reversedNoteRecord] 0).elements =
        [.text "note" 9 1 "hi" reversedNoteRecord.paint] ∧
      (reversedNote.document [reversedNoteRecord] 0).width = 8 ∧
      ¬((reversedNote.document [reversedNoteRecord] 0).inner 0).Contains ⟨9, 1⟩ := by
  have width : (reversedNote.document [reversedNoteRecord] 0).width = 8 := by decide +kernel
  refine ⟨by with_unfolding_all rfl, width, ?_⟩
  intro inside
  have right : (9 : ℚ) ≤ (reversedNote.document [reversedNoteRecord] 0).width - 0 := inside.right
  rw [width] at right
  linarith

end SceneLayout
