import Mathlib.Tactic.Linarith
import Mathlib.Tactic.Ring
import SceneLayout.Drawing.Document
import SceneLayout.Proofs.OrderedField

/-!
# What bounds span

Bounds span points if they contain each of them and have one on every side. The bounds of a
layout span the corners of its boxes and the points of its arrows, each moved out by half
the width of its stroke. Nothing has to be known of the lengths of vectors.

## Implementation notes

The near corner of a box is always moved back and the far one forth, also where an extent is
negative and the far corner lies before the near one.

Main statement: `spans_bounds`.
-/

namespace SceneLayout

universe u

variable {K : Type u} [Field K] [LinearOrder K]

open OrderedField Scalar

/-- The point moved along both axes, back and forth. -/
def Vec.around (point : Vec K) (reach : K) : List (Vec K) :=
  [point - ⟨reach, reach⟩, point + ⟨reach, reach⟩]

/-- The near corner of a box with its stroke, and the far one. -/
def Box.corners (box : Box K) (half : K) : List (Vec K) :=
  [⟨box.x - half, box.y - half⟩, ⟨box.right + half, box.bottom + half⟩]

/-- All points that an arrow is drawn through. -/
def ArrowPoints.all (points : ArrowPoints K) : List (Vec K) :=
  [points.start, points.shaftEnd, points.tip, points.left, points.right]

/-- Half the stroke width of a paint. -/
def Paint.halfStroke (paint : Paint K) : K :=
  paint.strokeWidth.getD 0 / 2

namespace Layout

variable [VectorLength K]

/-- The corners of the box of an entity, and if it is an arrow, the points around it. -/
def entityOutline (layout : Layout K) (record : Option (Record K)) (box : Box K) : List (Vec K) :=
  match record with
  | none => box.corners 0
  | some record =>
      box.corners record.paint.halfStroke ++
        if record.kind = .arrow then
          (record.arrowPoints layout ⟨0, 0⟩).toList.flatMap fun points =>
            points.all.flatMap fun point => point.around record.paint.halfStroke
        else []

/-- The corners of all boxes and the points around all arrows. -/
def outline (layout : Layout K) (records : List (Record K)) : Set (Vec K) :=
  {point | ∃ entry ∈ layout,
    point ∈ layout.entityOutline (Entries.find? (Record.byId records) entry.1) entry.2}

end Layout

namespace Entries

variable {β : Type u}

/-- What is read back has been written. -/
theorem mem_of_find?_foldl_insert {entries written : List (String × β)} {key : String} {value : β}
    (h : find? (entries.foldl (fun written entry => insert entry.1 entry.2 written) written) key =
      some value) :
    find? written key = some value ∨ (key, value) ∈ entries := by
  induction entries generalizing written with
  | nil => exact .inl h
  | cons entry rest ih =>
      rcases ih h with before | later
      · by_cases same : key = entry.1
        · subst same
          rw [find?_insert_self] at before
          exact .inr (Option.some.inj before ▸ List.mem_cons_self)
        · rw [find?_insert_of_ne same] at before
          exact .inl before
      · exact .inr (List.mem_cons_of_mem _ later)

end Entries

omit [Field K] [LinearOrder K] in
theorem Record.mem_of_find?_byId {records : List (Record K)} {id : String} {record : Record K}
    (h : Entries.find? (Record.byId records) id = some record) : record ∈ records := by
  rcases Entries.mem_of_find?_foldl_insert h with none | written
  · cases none
  · obtain ⟨known, member, same⟩ := List.mem_map.mp written
    cases same
    exact member

namespace Bounds

/-- The point is not outside the bounds. -/
structure Contains (bounds : Bounds K) (point : Vec K) : Prop where
  left : bounds.start.x ≤ point.x
  right : point.x ≤ bounds.finish.x
  top : bounds.start.y ≤ point.y
  bottom : point.y ≤ bounds.finish.y

/-- The sides of the bounds are at the least and the greatest coordinates of the points. -/
structure Spans (bounds : Bounds K) (points : Set (Vec K)) : Prop where
  left : IsLeast (Vec.x '' points) bounds.start.x
  right : IsGreatest (Vec.x '' points) bounds.finish.x
  top : IsLeast (Vec.y '' points) bounds.start.y
  bottom : IsGreatest (Vec.y '' points) bounds.finish.y

variable {bounds other : Bounds K} {points others : Set (Vec K)}

omit [Field K] in
theorem Spans.contains (h : bounds.Spans points) {point : Vec K} (member : point ∈ points) :
    bounds.Contains point where
  left := h.left.2 (Set.mem_image_of_mem _ member)
  right := h.right.2 (Set.mem_image_of_mem _ member)
  top := h.top.2 (Set.mem_image_of_mem _ member)
  bottom := h.bottom.2 (Set.mem_image_of_mem _ member)

theorem spans_ofPoints (first : Vec K) (rest : List (Vec K)) :
    (ofPoints first rest).Spans {point | point ∈ first :: rest} := by
  have coordinates (coordinate : Vec K → K) : coordinate '' {point | point ∈ first :: rest} =
      {a | a ∈ coordinate first :: rest.map coordinate} := by
    ext a
    rw [← List.map_cons]
    exact List.mem_map.symm
  constructor <;> rw [coordinates]
  · exact isLeast_least first.x (rest.map Vec.x)
  · exact isGreatest_greatest first.x (rest.map Vec.x)
  · exact isLeast_least first.y (rest.map Vec.y)
  · exact isGreatest_greatest first.y (rest.map Vec.y)

theorem Spans.union (h : bounds.Spans points) (h' : other.Spans others) :
    (bounds.union other).Spans (points ∪ others) := by
  constructor <;> rw [Set.image_union]
  · exact isLeast_union h.left h'.left
  · exact isGreatest_union h.right h'.right
  · exact isLeast_union h.top h'.top
  · exact isGreatest_union h.bottom h'.bottom

theorem Spans.foldl_union {β : Type*} {entries : List β} {boundsOf : β → Bounds K}
    {pointsOf : β → Set (Vec K)} (each : ∀ entry ∈ entries, (boundsOf entry).Spans (pointsOf entry))
    (h : bounds.Spans points) :
    ((entries.map boundsOf).foldl Bounds.union bounds).Spans
      (points ∪ {point | ∃ entry ∈ entries, point ∈ pointsOf entry}) := by
  induction entries generalizing bounds points with
  | nil => simpa using h
  | cons first rest ih =>
      have split : {point | ∃ entry ∈ first :: rest, point ∈ pointsOf entry} =
          pointsOf first ∪ {point | ∃ entry ∈ rest, point ∈ pointsOf entry} := by
        ext point
        simp
      rw [split, ← Set.union_assoc]
      exact ih (fun entry member => each entry (List.mem_cons_of_mem _ member))
        (h.union (each first List.mem_cons_self))

/-- Bounds moved by an offset span the points moved by it. -/
theorem Spans.move [IsStrictOrderedRing K] (h : bounds.Spans points) (offset : Vec K) :
    (⟨bounds.start + offset, bounds.finish + offset⟩ : Bounds K).Spans
      ((· + offset) '' points) := by
  have alongX : Vec.x '' ((· + offset) '' points) = (· + offset.x) '' (Vec.x '' points) :=
    Set.image_comm fun _ => rfl
  have alongY : Vec.y '' ((· + offset) '' points) = (· + offset.y) '' (Vec.y '' points) :=
    Set.image_comm fun _ => rfl
  have monotone (a : K) : Monotone (· + a) := fun _ _ h => add_le_add_left h a
  constructor
  · exact alongX ▸ (monotone offset.x).map_isLeast h.left
  · exact alongX ▸ (monotone offset.x).map_isGreatest h.right
  · exact alongY ▸ (monotone offset.y).map_isLeast h.top
  · exact alongY ▸ (monotone offset.y).map_isGreatest h.bottom

section Around

variable [IsStrictOrderedRing K] {half : K} {coordinate : Vec K → K} {a : K}
  (nonneg : 0 ≤ half)
  (back : ∀ point, coordinate (point - ⟨half, half⟩) = coordinate point - half)
  (forth : ∀ point, coordinate (point + ⟨half, half⟩) = coordinate point + half)
include nonneg back forth

theorem isLeast_around (h : IsLeast (coordinate '' points) a) :
    IsLeast (coordinate '' {moved | ∃ point ∈ points, moved ∈ point.around half}) (a - half) := by
  obtain ⟨⟨point, member, rfl⟩, lower⟩ := h
  constructor
  · exact ⟨point - ⟨half, half⟩, ⟨point, member, List.mem_cons_self⟩, back point⟩
  · rintro _ ⟨moved, ⟨other, among, around⟩, rfl⟩
    have below : coordinate point ≤ coordinate other := lower (Set.mem_image_of_mem _ among)
    rcases List.mem_pair.mp around with rfl | rfl
    · rw [back]
      linarith
    · rw [forth]
      linarith

theorem isGreatest_around (h : IsGreatest (coordinate '' points) a) :
    IsGreatest (coordinate '' {moved | ∃ point ∈ points, moved ∈ point.around half})
      (a + half) := by
  obtain ⟨⟨point, member, rfl⟩, upper⟩ := h
  constructor
  · exact ⟨point + ⟨half, half⟩, ⟨point, member, by simp [Vec.around]⟩, forth point⟩
  · rintro _ ⟨moved, ⟨other, among, around⟩, rfl⟩
    have above : coordinate other ≤ coordinate point := upper (Set.mem_image_of_mem _ among)
    rcases List.mem_pair.mp around with rfl | rfl
    · rw [back]
      linarith
    · rw [forth]
      linarith

end Around

variable [IsStrictOrderedRing K]

/-- Bounds grown on every side span the points moved out. -/
theorem Spans.grow (h : bounds.Spans points) {half : K} (nonneg : 0 ≤ half) :
    (bounds.grow half).Spans {moved | ∃ point ∈ points, moved ∈ point.around half} where
  left := isLeast_around nonneg (fun _ => rfl) (fun _ => rfl) h.left
  right := isGreatest_around nonneg (fun _ => rfl) (fun _ => rfl) h.right
  top := isLeast_around nonneg (fun _ => rfl) (fun _ => rfl) h.top
  bottom := isGreatest_around nonneg (fun _ => rfl) (fun _ => rfl) h.bottom

end Bounds

theorem ArrowPoints.spans_bounds (points : ArrowPoints K) :
    points.bounds.Spans {point | point ∈ points.all} :=
  Bounds.spans_ofPoints _ _

namespace Layout

theorem spans_boxBounds (box : Box K) (half : K) :
    (boxBounds box half).Spans {point | point ∈ box.corners half} := by
  have far : (⟨box.x - half + (box.width + half * nat 2),
      box.y - half + (box.height + half * nat 2)⟩ : Vec K) =
      ⟨box.right + half, box.bottom + half⟩ := by
    simp only [Box.right, Box.bottom, Vec.mk.injEq]
    push_cast
    constructor <;> ring
  rw [boxBounds, Bounds.ofRect, far]
  exact Bounds.spans_ofPoints _ _

variable [IsStrictOrderedRing K] [VectorLength K]

/-- What an entity covers spans its outline. -/
theorem spans_entityBounds (layout : Layout K) {record : Option (Record K)}
    (nonneg : ∀ known ∈ record, 0 ≤ known.paint.halfStroke) (box : Box K) :
    (layout.entityBounds record box).Spans
      {point | point ∈ layout.entityOutline record box} := by
  cases record with
  | none =>
      have half : (nat 0 / nat 2 : K) = 0 := by simp
      rw [entityBounds, half]
      exact spans_boxBounds box 0
  | some record =>
      have own := spans_boxBounds box record.paint.halfStroke
      have half : record.drawnStrokeWidth.getD 0 / 2 = record.paint.halfStroke := rfl
      cases kind : record.kind with
      | arrow =>
          cases drawn : record.arrowPoints layout ⟨0, 0⟩ with
          | none => simpa [entityBounds, entityOutline, kind, half, drawn] using own
          | some points =>
              have around := (points.spans_bounds).grow (nonneg record rfl)
              simpa [entityBounds, entityOutline, kind, half, drawn, Set.ofPred_or]
                using own.union around
      | none | rect | circle | text =>
          simpa [entityBounds, entityOutline, kind, half] using own

/-- What a layout covers spans its outline. -/
theorem spans_bounds {layout : Layout K} {records : List (Record K)} (nonempty : layout ≠ [])
    (nonneg : ∀ record ∈ records, 0 ≤ record.paint.halfStroke) :
    (layout.bounds records).Spans (layout.outline records) := by
  obtain ⟨first, rest, rfl⟩ := List.exists_cons_of_ne_nil nonempty
  have each (entry : String × Box K) :
      (entityBounds (first :: rest) (Entries.find? (Record.byId records) entry.1) entry.2).Spans
        {point | point ∈ entityOutline (first :: rest)
          (Entries.find? (Record.byId records) entry.1) entry.2} :=
    spans_entityBounds _ (fun record found => nonneg record (Record.mem_of_find?_byId found)) _
  have split : outline (first :: rest) records = {point | point ∈ entityOutline (first :: rest)
        (Entries.find? (Record.byId records) first.1) first.2} ∪
      {point | ∃ entry ∈ rest, point ∈ entityOutline (first :: rest)
        (Entries.find? (Record.byId records) entry.1) entry.2} := by
    ext point
    simp [outline]
  rw [split]
  exact (each first).foldl_union fun entry _ => each entry

end Layout

end SceneLayout
