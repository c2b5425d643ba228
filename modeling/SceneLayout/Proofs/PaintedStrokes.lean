import SceneLayout.Proofs.Page

/-!
# Painted strokes

A stroke is painted on both sides of an outline, half of its width on either. The outline
of a rectangle is drawn half a stroke outside its box, which is as far as the bounds of a
layout go; so the stroke ends half its width further out, a whole stroke outside the box.
It stays inside the margins on a side exactly if the layout goes that far there, which the
box alone never makes it do.

Main statements: `rect_stroke_within_iff`, `solidCard_cut_off`.
-/

namespace SceneLayout

universe u

variable {K : Type u} [Field K] [LinearOrder K]

open OrderedField Scalar

/-- The rectangle is drawn with the paint of the record, and its sides are half a stroke outside
the moved box. -/
structure Record.OutlinedBy (record : Record K) (box : Box K) (offset : Vec K)
    (x y width height : K) (paint : Paint K) : Prop where
  painted : paint = record.paint
  left : x = box.x + offset.x - paint.halfStroke
  top : y = box.y + offset.y - paint.halfStroke
  right : x + width = box.right + offset.x + paint.halfStroke
  bottom : y + height = box.bottom + offset.y + paint.halfStroke

variable [IsStrictOrderedRing K] [VectorLength K] {layout : Layout K} {offset : Vec K}
  {record : Record K} {box : Box K} {x y width height : K} {paint : Paint K}

/-- Every rectangle that a record is drawn with is the outline of its box. -/
theorem Record.outlinedBy_of_mem_elements {id own : String}
    (drawn : Element.rect id x y width height paint ∈ record.elements layout offset own box) :
    id = own ∧ record.OutlinedBy box offset x y width height paint := by
  cases kind : record.kind with
  | rect =>
      simp only [elements, kind, List.mem_singleton, Element.rect.injEq] at drawn
      obtain ⟨rfl, rfl, rfl, rfl, rfl, rfl⟩ := drawn
      have stroke : record.paint.halfStroke = record.outlineWidth / 2 := by
        rw [outlineWidth_eq, ← drawnStrokeWidth_of_ne (by simp [kind])]
        rfl
      refine ⟨rfl, rfl, ?left, ?top, ?right, ?bottom⟩ <;> rw [stroke]
      case left | top => push_cast; ring
      case right => simp only [Box.right]; push_cast; ring
      case bottom => simp only [Box.bottom]; push_cast; ring
  | none | circle | text => simp [elements, kind] at drawn
  | arrow =>
      cases points : record.arrowPoints layout offset <;> simp [elements, kind, points] at drawn

/-- Both corners of a box are inside the bounds of the layout with the stroke of their record. -/
theorem Layout.bounds_contains_corners {records : List (Record K)}
    (strokes : ∀ record ∈ records, ∀ width ∈ record.strokeWidth, 0 ≤ width) {id : String}
    (member : (id, box) ∈ layout) (found : Entries.find? (Record.byId records) id = some record) :
    (layout.bounds records).Contains
        ⟨box.x - record.paint.halfStroke, box.y - record.paint.halfStroke⟩ ∧
      (layout.bounds records).Contains
        ⟨box.right + record.paint.halfStroke, box.bottom + record.paint.halfStroke⟩ := by
  have nonneg : ∀ record ∈ records, 0 ≤ record.paint.halfStroke := fun record listed =>
    Record.halfStroke_nonneg (strokes record listed)
  have spans : (layout.bounds records).Spans (layout.outline records) :=
    spans_bounds (List.ne_nil_of_mem member) nonneg
  have corner : ∀ point ∈ box.corners record.paint.halfStroke,
      (layout.bounds records).Contains point := by
    intro point listed
    refine spans.contains ⟨(id, box), member, ?_⟩
    rw [found]
    exact List.mem_append_left _ listed
  exact ⟨corner _ List.mem_cons_self, corner _ (List.mem_cons_of_mem _ List.mem_cons_self)⟩

omit [IsStrictOrderedRing K] in
/-- The far margins of the page are at the far sides of what the layout covers when it is moved. -/
theorem Layout.document_sub_margin (layout : Layout K) (records : List (Record K)) (margin : K) :
    (layout.document records margin).width - margin =
        (layout.bounds records).finish.x + (margin - (layout.bounds records).start.x) ∧
      (layout.document records margin).height - margin =
        (layout.bounds records).finish.y + (margin - (layout.bounds records).start.y) := by
  simp only [document, Bounds.width, Bounds.height]
  constructor <;> push_cast <;> ring

/-- The outline of a rectangle never leaves the margins. Half of its stroke is painted beyond the
outline, and this stays inside the margins on a side exactly if the bounds of the layout are at
least a whole stroke outside the box of the rectangle there. -/
theorem rect_stroke_within_iff {records : List (Record K)}
    (strokes : ∀ record ∈ records, ∀ width ∈ record.strokeWidth, 0 ≤ width) (margin : K)
    {id : String} {x y width height : K} {paint : Paint K}
    (drawn : Element.rect id x y width height paint ∈ (layout.document records margin).elements) :
    ∃ box, (id, box) ∈ layout ∧
      (margin ≤ x ∧ margin ≤ y ∧ x + width ≤ (layout.document records margin).width - margin ∧
        y + height ≤ (layout.document records margin).height - margin) ∧
      (margin ≤ x - paint.halfStroke ↔
        (layout.bounds records).start.x ≤ box.x - paint.strokeWidth.getD 0) ∧
      (margin ≤ y - paint.halfStroke ↔
        (layout.bounds records).start.y ≤ box.y - paint.strokeWidth.getD 0) ∧
      (x + width + paint.halfStroke ≤ (layout.document records margin).width - margin ↔
        box.right + paint.strokeWidth.getD 0 ≤ (layout.bounds records).finish.x) ∧
      (y + height + paint.halfStroke ≤ (layout.document records margin).height - margin ↔
        box.bottom + paint.strokeWidth.getD 0 ≤ (layout.bounds records).finish.y) := by
  obtain ⟨⟨own, box⟩, member, drawn⟩ := List.mem_flatMap.mp drawn
  cases found : Entries.find? (Record.byId records) own with
  | none => simp [found] at drawn
  | some record =>
      simp only [found] at drawn
      obtain ⟨rfl, rfl, left, top, right, bottom⟩ := Record.outlinedBy_of_mem_elements drawn
      obtain ⟨near, far⟩ := Layout.bounds_contains_corners strokes member found
      obtain ⟨farMargin, lowMargin⟩ := Layout.document_sub_margin layout records margin
      have whole : record.paint.strokeWidth.getD 0 =
          record.paint.halfStroke + record.paint.halfStroke := (add_halves _).symm
      rw [whole, right, bottom, left, top, farMargin, lowMargin]
      obtain ⟨nearLeft, -, nearTop, -⟩ := near
      obtain ⟨-, farRight, -, farBottom⟩ := far
      dsimp only at nearLeft nearTop farRight farBottom ⊢
      refine ⟨box, member, ⟨?_, ?_, ?_, ?_⟩, ?_, ?_, ?_, ?_⟩
      · linarith
      · linarith
      · linarith
      · linarith
      -- The offset is on both sides, and half a stroke of the whole one.
      all_goals constructor <;> intro <;> linarith

attribute [local instance] instVectorLengthRat

/-- A card in the corner of a larger area that nothing is drawn for. -/
def corneredCard : Layout ℚ := [("area", ⟨0, 0, 40, 40⟩), ("card", ⟨2, 1, 10, 10⟩)]

/-- The card alone. -/
def loneCard : Layout ℚ := [("card", ⟨0, 0, 10, 10⟩)]

/-- The card with a solid stroke. -/
def solidCardRecord : Record ℚ :=
  { id := "card", kind := .rect, x := 0, y := 0, width := 10, height := 10,
    strokeWidth := some 2 }

/-- The card is far enough from the left side of the area, and too close to the upper one. -/
theorem corneredCard_stroke_within_iff :
    ∃ box, ("card", box) ∈ corneredCard ∧
      ((4 : ℚ) ≤ 5 ∧ (4 : ℚ) ≤ 4 ∧
        5 + 12 ≤ (corneredCard.document [solidCardRecord] 4).width - 4 ∧
        4 + 12 ≤ (corneredCard.document [solidCardRecord] 4).height - 4) ∧
      (4 ≤ 5 - solidCardRecord.paint.halfStroke ↔
        (corneredCard.bounds [solidCardRecord]).start.x ≤
          box.x - solidCardRecord.paint.strokeWidth.getD 0) ∧
      (4 ≤ 4 - solidCardRecord.paint.halfStroke ↔
        (corneredCard.bounds [solidCardRecord]).start.y ≤
          box.y - solidCardRecord.paint.strokeWidth.getD 0) ∧
      (5 + 12 + solidCardRecord.paint.halfStroke ≤
          (corneredCard.document [solidCardRecord] 4).width - 4 ↔
        box.right + solidCardRecord.paint.strokeWidth.getD 0 ≤
          (corneredCard.bounds [solidCardRecord]).finish.x) ∧
      (4 + 12 + solidCardRecord.paint.halfStroke ≤
          (corneredCard.document [solidCardRecord] 4).height - 4 ↔
        box.bottom + solidCardRecord.paint.strokeWidth.getD 0 ≤
          (corneredCard.bounds [solidCardRecord]).finish.y) := by
  refine rect_stroke_within_iff (by decide) 4 ?_
  rw [show (corneredCard.document [solidCardRecord] 4).elements =
    [.rect "card" 5 4 12 12 solidCardRecord.paint] by with_unfolding_all rfl]
  exact List.mem_cons_self

/-- The outline of the card takes up the page, so that half of the stroke is painted outside. -/
theorem solidCard_cut_off :
    (∀ width ∈ solidCardRecord.strokeWidth, 0 ≤ width) ∧
      .rect "card" 0 0 12 12 solidCardRecord.paint ∈
        (loneCard.document [solidCardRecord] 0).elements ∧
      ¬(0 ≤ 0 - solidCardRecord.paint.halfStroke) ∧
      ¬(0 + 12 + solidCardRecord.paint.halfStroke ≤
        (loneCard.document [solidCardRecord] 0).width - 0) := by
  have elements : (loneCard.document [solidCardRecord] 0).elements =
      [.rect "card" 0 0 12 12 solidCardRecord.paint] := by with_unfolding_all rfl
  refine ⟨by decide, ?_, by decide +kernel, by decide +kernel⟩
  rw [elements]
  exact List.mem_cons_self

end SceneLayout
