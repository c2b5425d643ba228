import SceneLayout.Proofs.Page

/-!
# Moved layouts

The page follows what is on it. Boxes that are moved together cover bounds that are moved
as far, and the offset of the document takes the move back. The margin adds one more move,
of all elements by the same way.

## Implementation notes

A vector has whatever length the class gives it. An arrow needs no law for that, since the
way from its start to its tip is not moved.

Main statement: `document_move`.
-/

namespace SceneLayout

universe u

variable {K : Type u} [Field K] [LinearOrder K]

open OrderedField Scalar

/-- The box moved along a way, with its extents. -/
def Box.move (box : Box K) (way : Vec K) : Box K :=
  ⟨box.x + way.x, box.y + way.y, box.width, box.height⟩

/-- The layout with every box moved along the same way. -/
def Layout.move (layout : Layout K) (way : Vec K) : Layout K :=
  layout.map fun entry => (entry.1, entry.2.move way)

/-- The bounds moved along a way. -/
def Bounds.move (bounds : Bounds K) (way : Vec K) : Bounds K :=
  ⟨bounds.start + way, bounds.finish + way⟩

/-- The arrow with all its points moved along a way. -/
def ArrowPoints.move (points : ArrowPoints K) (way : Vec K) : ArrowPoints K :=
  ⟨points.start + way, points.shaftEnd + way, points.tip + way, points.left + way,
    points.right + way⟩

/-- The element with all its coordinates moved along a way, and with its sizes and its paint. -/
def Element.move (way : Vec K) : Element K → Element K
  | .rect id x y width height paint => .rect id (x + way.x) (y + way.y) width height paint
  | .circle id cx cy r paint => .circle id (cx + way.x) (cy + way.y) r paint
  | .text id x y content paint => .text id (x + way.x) (y + way.y) content paint
  | .line id x1 y1 x2 y2 paint =>
      .line id (x1 + way.x) (y1 + way.y) (x2 + way.x) (y2 + way.y) paint
  | .polygon id points paint => .polygon id (points.map (· + way)) paint

omit [Field K] [LinearOrder K] in
@[ext] theorem Document.ext {first second : Document K} (width : first.width = second.width)
    (height : first.height = second.height) (elements : first.elements = second.elements) :
    first = second := by
  cases first
  cases second
  cases width
  cases height
  cases elements
  rfl

/-- The document with a margin around what has none. -/
def Document.withMargin (document : Document K) (margin : K) : Document K where
  width := document.width + (margin + margin)
  height := document.height + (margin + margin)
  elements := document.elements.map (Element.move ⟨margin, margin⟩)

/-! ## Bounds -/

namespace OrderedField

theorem lt_add_right [IsStrictOrderedRing K] (a b way : K) : lt (a + way) (b + way) = lt a b := by
  rw [Bool.eq_iff_iff, lt_iff, lt_iff, add_lt_add_iff_right]

theorem least_add [IsStrictOrderedRing K] (first way : K) (rest : List K) :
    least (first + way) (rest.map (· + way)) = least first rest + way := by
  rw [least, List.foldl_map]
  apply List.foldl_hom (· + way)
  intro best a
  rw [lt_add_right]
  exact (apply_ite (· + way) _ _ _).symm

theorem greatest_add [IsStrictOrderedRing K] (first way : K) (rest : List K) :
    greatest (first + way) (rest.map (· + way)) = greatest first rest + way := by
  rw [greatest, List.foldl_map]
  apply List.foldl_hom (· + way)
  intro best a
  rw [lt_add_right]
  exact (apply_ite (· + way) _ _ _).symm

end OrderedField

namespace Bounds

theorem grow_move (bounds : Bounds K) (way : Vec K) (margin : K) :
    (bounds.move way).grow margin = (bounds.grow margin).move way := by
  simp only [grow, move, Vec.add_sub_right_comm, Vec.add_right_comm]

theorem width_move (bounds : Bounds K) (way : Vec K) : (bounds.move way).width = bounds.width := by
  simp only [width, move, Vec.add_x, add_sub_add_right_eq_sub]

theorem height_move (bounds : Bounds K) (way : Vec K) :
    (bounds.move way).height = bounds.height := by
  simp only [height, move, Vec.add_y, add_sub_add_right_eq_sub]

variable [IsStrictOrderedRing K]

theorem ofPoints_move (first way : Vec K) (rest : List (Vec K)) :
    ofPoints (first + way) (rest.map (· + way)) = (ofPoints first rest).move way := by
  have alongX : (rest.map (· + way)).map Vec.x = (rest.map Vec.x).map (· + way.x) := by
    rw [List.map_map, List.map_map]
    rfl
  have alongY : (rest.map (· + way)).map Vec.y = (rest.map Vec.y).map (· + way.y) := by
    rw [List.map_map, List.map_map]
    rfl
  simp only [ofPoints, alongX, alongY, Vec.add_x, Vec.add_y, least_add, greatest_add]
  rfl

theorem union_move (first second : Bounds K) (way : Vec K) :
    (first.move way).union (second.move way) = (first.union second).move way := by
  simp only [union, move, Bounds.mk.injEq]
  constructor <;> ext
  · exact least_add first.start.x way.x [second.start.x]
  · exact least_add first.start.y way.y [second.start.y]
  · exact greatest_add first.finish.x way.x [second.finish.x]
  · exact greatest_add first.finish.y way.y [second.finish.y]

end Bounds

/-! ## Arrows -/

namespace ArrowPoints

theorem all_move (points : ArrowPoints K) (way : Vec K) :
    (points.move way).all = points.all.map (· + way) := rfl

theorem bounds_move [IsStrictOrderedRing K] (points : ArrowPoints K) (way : Vec K) :
    (points.move way).bounds = points.bounds.move way :=
  Bounds.ofPoints_move points.start way [points.shaftEnd, points.tip, points.left, points.right]

omit [Field K] [LinearOrder K] in
theorem all_injective : Function.Injective (all : ArrowPoints K → List (Vec K)) := by
  rintro ⟨start, shaftEnd, tip, left, right⟩ ⟨start', shaftEnd', tip', left', right'⟩ same
  simpa only [all, List.cons.injEq, and_true, mk.injEq] using same

variable [VectorLength K]

/-- An arrow between boxes that are moved is moved. -/
theorem between_move (source target : Box K) (way offset : Vec K) :
    between (source.move way) (target.move way) offset = between source target (offset + way) := by
  have start : (⟨(source.move way).centerX + offset.x,
      (source.move way).bottom + offset.y + clearance⟩ : Vec K) =
      ⟨source.centerX + (offset + way).x, source.bottom + (offset + way).y + clearance⟩ := by
    ext <;> simp only [Box.move, Box.centerX, Box.bottom, Vec.add_x, Vec.add_y] <;> ring
  have tip : (⟨(target.move way).centerX + offset.x,
      (target.move way).y + offset.y - clearance⟩ : Vec K) =
      ⟨target.centerX + (offset + way).x, target.y + (offset + way).y - clearance⟩ := by
    ext <;> simp only [Box.move, Box.centerX, Vec.add_x, Vec.add_y] <;> ring
  simp only [between, start, tip]

/-- An arrow is moved by what is added to its offset. -/
theorem between_add (source target : Box K) (offset way : Vec K) :
    between source target (offset + way) = (between source target offset).move way := by
  have twice : (· + (offset + way)) = (· + way) ∘ fun point : Vec K => point + offset := by
    funext point
    ext <;> simp only [Function.comp_apply, Vec.add_x, Vec.add_y] <;> ring
  apply all_injective
  rw [all_move, all_between, all_between source target offset, List.map_map, twice]

end ArrowPoints

/-! ## Entities and their elements -/

namespace Entries

variable {β γ : Type*}

theorem find?_map (f : β → γ) (entries : List (String × β)) (key : String) :
    find? (entries.map fun entry => (entry.1, f entry.2)) key = (find? entries key).map f := by
  induction entries with
  | nil => rfl
  | cons entry rest ih =>
      rw [List.map_cons, find?_cons, find?_cons, ih, apply_ite (Option.map f)]
      rfl

end Entries

namespace Record

theorem arrowEnds_move (record : Record K) (layout : Layout K) (way : Vec K) :
    record.arrowEnds (layout.move way) =
      (record.arrowEnds layout).map fun ends => (ends.1.move way, ends.2.move way) := by
  have moved (id : Option String) : arrowEnds.boxOf (layout.move way) id =
      (arrowEnds.boxOf layout id).map fun box => box.move way := by
    cases id with
    | none => rfl
    | some id =>
        have found := Entries.find?_map (fun box => Box.move box way) layout id
        rw [arrowEnds.boxOf, arrowEnds.boxOf, Layout.move, found, apply_ite (Option.map _)]
        rfl
  rw [arrowEnds, arrowEnds, moved, moved]
  cases arrowEnds.boxOf layout record.fromId with
  | none => rfl
  | some source => cases arrowEnds.boxOf layout record.toId <;> rfl

variable [VectorLength K]

theorem arrowPoints_add (record : Record K) (layout : Layout K) (offset way : Vec K) :
    record.arrowPoints layout (offset + way) =
      (record.arrowPoints layout offset).map fun points => points.move way := by
  simp only [arrowPoints, ArrowPoints.between_add, Option.map_map]
  rfl

theorem arrowPoints_move (record : Record K) (layout : Layout K) (way offset : Vec K) :
    record.arrowPoints (layout.move way) offset = record.arrowPoints layout (offset + way) := by
  rw [arrowPoints, arrowPoints, arrowEnds_move, Option.map_map]
  simp only [Function.comp_def, ArrowPoints.between_move]

/-- A record is drawn with elements that are moved by what is added to the offset. -/
theorem elements_add (record : Record K) (layout : Layout K) (offset way : Vec K) (id : String)
    (box : Box K) :
    record.elements layout (offset + way) id box =
      (record.elements layout offset id box).map (Element.move way) := by
  cases kind : record.kind with
  | none => simp [elements, kind]
  | rect | circle | text =>
      simp only [elements, kind, List.map_cons, List.map_nil, Element.move, Vec.add_x, Vec.add_y]
      ring_nf
  | arrow =>
      simp only [elements, kind, arrowPoints_add]
      cases record.arrowPoints layout offset with
      | none => rfl
      | some points => rfl

/-- In a layout that is moved a record is drawn as by an offset with that move. -/
theorem elements_move (record : Record K) (layout : Layout K) (way offset : Vec K) (id : String)
    (box : Box K) :
    record.elements (layout.move way) offset id (box.move way) =
      record.elements layout (offset + way) id box := by
  have alongX : box.x + way.x + offset.x = box.x + (offset + way).x := by
    rw [Vec.add_x]
    ring
  have alongY : box.y + way.y + offset.y = box.y + (offset + way).y := by
    rw [Vec.add_y]
    ring
  simp only [elements, arrowPoints_move, Box.move, alongX, alongY]

end Record

namespace Layout

theorem boxBounds_move [IsStrictOrderedRing K] (box : Box K) (way : Vec K) (half : K) :
    boxBounds (box.move way) half = (boxBounds box half).move way := by
  have near : (⟨box.x + way.x - half, box.y + way.y - half⟩ : Vec K) =
      ⟨box.x - half, box.y - half⟩ + way := by
    ext <;> simp only [Vec.add_x, Vec.add_y] <;> ring
  have far : (⟨box.x + way.x - half + (box.width + half * nat 2),
      box.y + way.y - half + (box.height + half * nat 2)⟩ : Vec K) =
      ⟨box.x - half + (box.width + half * nat 2), box.y - half + (box.height + half * nat 2)⟩ +
        way := by
    ext <;> simp only [Vec.add_x, Vec.add_y] <;> ring
  rw [boxBounds, Box.move, Bounds.ofRect, near, far]
  exact Bounds.ofPoints_move _ way [_]

variable [VectorLength K]

theorem entityBounds_move [IsStrictOrderedRing K] (layout : Layout K) (record : Option (Record K))
    (box : Box K) (way : Vec K) :
    (layout.move way).entityBounds record (box.move way) =
      (layout.entityBounds record box).move way := by
  cases record with
  | none => exact boxBounds_move box way _
  | some record =>
      cases kind : record.kind with
      | none | rect | circle | text =>
          simp only [entityBounds, kind]
          exact boxBounds_move box way _
      | arrow =>
          simp only [entityBounds, kind, Record.arrowPoints_move, Record.arrowPoints_add]
          cases record.arrowPoints layout ⟨nat 0, nat 0⟩ with
          | none => exact boxBounds_move box way _
          | some points =>
              simp only [Option.map_some, ArrowPoints.bounds_move, boxBounds_move,
                Bounds.grow_move, Bounds.union_move]

/-- Bounds are moved with what they enclose. -/
theorem bounds_move [IsStrictOrderedRing K] {layout : Layout K} (nonempty : layout ≠ [])
    (records : List (Record K)) (way : Vec K) :
    (layout.move way).bounds records = (layout.bounds records).move way := by
  obtain ⟨first, rest, rfl⟩ := List.exists_cons_of_ne_nil nonempty
  set layout : Layout K := first :: rest
  set boundsOf : String × Box K → Bounds K := fun entry =>
    layout.entityBounds (Entries.find? (Record.byId records) entry.1) entry.2
  have mapped : ((layout.move way).map fun entry =>
      (layout.move way).entityBounds (Entries.find? (Record.byId records) entry.1) entry.2) =
      layout.map fun entry => (boundsOf entry).move way := by
    rw [move, List.map_map]
    exact List.map_congr_left fun entry _ => entityBounds_move layout _ entry.2 way
  calc
    (layout.move way).bounds records
        = (rest.map fun entry => (boundsOf entry).move way).foldl Bounds.union
            ((boundsOf first).move way) := by
          simp only [bounds, mapped]
          rfl
    _ = ((rest.map boundsOf).foldl Bounds.union (boundsOf first)).move way := by
          rw [List.foldl_map, List.foldl_map]
          apply List.foldl_hom (fun bounds : Bounds K => bounds.move way)
          intro bounds entry
          exact Bounds.union_move _ _ way
    _ = (layout.bounds records).move way := rfl

theorem drawn_add (layout : Layout K) (records : List (Record K)) (offset way : Vec K) :
    layout.drawn records (offset + way) =
      (layout.drawn records offset).map (Element.move way) := by
  rw [drawn, drawn, List.map_flatMap]
  apply List.flatMap_congr
  intro entry _
  cases Entries.find? (Record.byId records) entry.1 with
  | none => rfl
  | some record => exact record.elements_add layout offset way entry.1 entry.2

theorem drawn_move (layout : Layout K) (records : List (Record K)) (way offset : Vec K) :
    (layout.move way).drawn records offset = layout.drawn records (offset + way) := by
  rw [drawn, drawn, move, List.flatMap_map]
  apply List.flatMap_congr
  intro entry _
  cases Entries.find? (Record.byId records) entry.1 with
  | none => rfl
  | some record => exact record.elements_move layout way offset entry.1 entry.2

/-- The margin moves the elements and makes the page larger by the margin on every side. -/
theorem document_eq_withMargin (layout : Layout K) (records : List (Record K)) (margin : K) :
    layout.document records margin = (layout.document records 0).withMargin margin := by
  set start := (layout.bounds records).start
  have offset : (⟨margin - start.x, margin - start.y⟩ : Vec K) =
      ⟨0 - start.x, 0 - start.y⟩ + ⟨margin, margin⟩ := by
    ext <;> simp only [Vec.add_x, Vec.add_y] <;> ring
  have elements : (layout.document records margin).elements =
      (layout.document records 0).elements.map (Element.move ⟨margin, margin⟩) :=
    calc
      (layout.document records margin).elements
          = layout.drawn records ⟨margin - start.x, margin - start.y⟩ := rfl
      _ = (layout.drawn records ⟨0 - start.x, 0 - start.y⟩).map
            (Element.move ⟨margin, margin⟩) := by
          rw [offset, drawn_add]
  have twice (size : K) : size + margin * nat 2 = size + 0 * nat 2 + (margin + margin) := by
    push_cast
    ring
  rw [Document.withMargin, ← elements]
  simp only [document, twice]

/-- The offset of the document takes back what the layout is moved. -/
theorem document_of_move [IsStrictOrderedRing K] (layout : Layout K) (records : List (Record K))
    (way : Vec K) (margin : K) :
    (layout.move way).document records margin = layout.document records margin := by
  rcases eq_or_ne layout [] with rfl | nonempty
  · rfl
  · set start := (layout.bounds records).start
    have bounds := bounds_move nonempty records way
    have back : ⟨margin - (start + way).x, margin - (start + way).y⟩ + way =
        (⟨margin - start.x, margin - start.y⟩ : Vec K) := by
      ext <;> simp only [Vec.add_x, Vec.add_y] <;> ring
    have elements : ((layout.move way).document records margin).elements =
        (layout.document records margin).elements :=
      calc
        ((layout.move way).document records margin).elements
            = (layout.move way).drawn records
                ⟨margin - (start + way).x, margin - (start + way).y⟩ := by
              simp only [document, bounds]
              rfl
        _ = layout.drawn records ⟨margin - start.x, margin - start.y⟩ := by
            rw [drawn_move, back]
    apply Document.ext _ _ elements
    · simp only [document, bounds, Bounds.width_move]
    · simp only [document, bounds, Bounds.height_move]

end Layout

/-- A layout that is moved has the same document. A margin moves every element of the document
without one by the margin along both axes, keeps its sizes and its paint, and makes the page larger
by the margin on every side. -/
theorem document_move [IsStrictOrderedRing K] [VectorLength K] (layout : Layout K)
    (records : List (Record K)) (margin : K) (way : Vec K) :
    (layout.move way).document records margin = layout.document records margin ∧
      layout.document records margin = (layout.document records 0).withMargin margin :=
  ⟨layout.document_of_move records way margin, layout.document_eq_withMargin records margin⟩

attribute [local instance] instVectorLengthRat

/-- The disc and its note are drawn in the same place wherever they stand, and four further in with
a margin of four. -/
theorem labelledDisc_move :
    (labelledDisc.move ⟨-3, 7⟩).document labelledDiscRecords 4 =
        labelledDisc.document labelledDiscRecords 4 ∧
      labelledDisc.document labelledDiscRecords 4 =
        (labelledDisc.document labelledDiscRecords 0).withMargin 4 :=
  document_move labelledDisc labelledDiscRecords 4 ⟨-3, 7⟩

end SceneLayout
