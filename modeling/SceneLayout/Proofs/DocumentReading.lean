import SceneLayout.Proofs.MarkupReader

/-!
# Reading documents back

What a document is written as reads as the elements of the document, whatever their ids, paints and
texts are. So no data ends the place that it stands in.

Main statement: `svg_reads_back`.
-/

namespace SceneLayout

namespace Markup

/-! ## Markup as it is read -/

mutual

/-- The elements that a piece of markup is read as: a text is none. -/
def elements : Markup → List ReadElement
  | text _ => []
  | single name attributes => [.mk name attributes "" []]
  | pair name attributes children =>
      [.mk name attributes (ownTextAll children) (elementsAll children)]

def elementsAll : List Markup → List ReadElement
  | [] => []
  | first :: rest => first.elements ++ elementsAll rest

/-- The text that a piece of markup adds to the element around it. -/
def ownText : Markup → String
  | text content => content
  | single .. | pair .. => ""

def ownTextAll : List Markup → String
  | [] => ""
  | first :: rest => first.ownText ++ ownTextAll rest

/-- All elements and attributes have names. -/
def Named : Markup → Prop
  | text _ => True
  | single name attributes => IsName name ∧ ∀ entry ∈ attributes, IsName entry.1
  | pair name attributes children =>
      IsName name ∧ (∀ entry ∈ attributes, IsName entry.1) ∧ NamedAll children

def NamedAll : List Markup → Prop
  | [] => True
  | first :: rest => first.Named ∧ NamedAll rest

end

mutual

/-- Written markup is read, in the element around it, as its elements and its text. -/
theorem run_render (frames : List Frame) (tag : Tag) (before : String)
    (children : List ReadElement) : (markup : Markup) → markup.Named →
    Reader.run markup.render.toList ⟨⟨tag, ⟨before, none⟩, children⟩ :: frames, .content⟩ =
      some ⟨⟨tag, ⟨before ++ markup.ownText, none⟩, children ++ markup.elements⟩ :: frames,
        .content⟩
  | text content, _ => by
      rw [elements, List.append_nil]
      exact Reader.run_escapeText frames tag before content children
  | single name attributes, named => by
      rw [ownText, String.append_empty]
      exact Reader.run_single named.1 named.2 (by rintro frame ⟨⟩; rfl)
  | pair name attributes inner, named => by
      rw [ownText, String.append_empty]
      have inside := run_renderAll
        (⟨tag, ⟨before, none⟩, children⟩ :: frames) ⟨name, attributes⟩ "" [] inner named.2.2
      rw [String.empty_append, List.nil_append] at inside
      exact Reader.run_pair named.1 named.2.1 (by rintro frame ⟨⟩; rfl) inside

theorem run_renderAll (frames : List Frame) (tag : Tag) (before : String)
    (children : List ReadElement) : (markups : List Markup) → NamedAll markups →
    Reader.run (renderAll markups).toList ⟨⟨tag, ⟨before, none⟩, children⟩ :: frames, .content⟩ =
      some ⟨⟨tag, ⟨before ++ ownTextAll markups, none⟩, children ++ elementsAll markups⟩ :: frames,
        .content⟩
  | [], _ => by
      rw [ownTextAll, elementsAll, String.append_empty, List.append_nil]
      rfl
  | first :: rest, named => by
      rw [renderAll, String.toList_append, Reader.run_append,
        run_render frames tag before children first named.1, Option.bind_some,
        run_renderAll frames tag _ _ rest named.2, String.append_assoc, List.append_assoc]
      rfl

end

/-- A written pair of tags is read as the element that it is. -/
theorem read?_render_pair {name : String} {attributes : Entries String} {children : List Markup}
    (named : (pair name attributes children).Named) :
    read? (pair name attributes children).render =
      some (.mk name attributes (ownTextAll children) (elementsAll children)) := by
  have inside := run_renderAll [] ⟨name, attributes⟩ "" [] children named.2.2
  rw [String.empty_append, List.nil_append] at inside
  rw [read?, Reader.start, render, Reader.run_pair named.1 named.2.1 (by rintro frame ⟨⟩) inside]
  rfl

example :
    read? (pair "text" [("id", "1 < \"2\"")] [.text "&quot;"]).render =
      some (.mk "text" [("id", "1 < \"2\"")] "&quot;" []) := rfl

end Markup

/-! ## Documents as they are read -/

/-- The attributes of a paint, without those that it does not give. -/
def Paint.shown (paint : Paint Float) : Entries String :=
  (paint.fill.toList.map fun fill => ("fill", fill)) ++
    (paint.stroke.toList.map fun stroke => ("stroke", stroke)) ++
    (paint.strokeWidth.toList.map fun width => ("stroke-width", drawnNumber width))

/-- What an element of a document says: its kind, its id, its measures, its paint and its text. -/
def Element.shown : Element Float → Markup.ReadElement
  | rect id x y width height paint =>
      .mk "rect" ([("id", id), ("x", drawnNumber x), ("y", drawnNumber y),
        ("width", drawnNumber width), ("height", drawnNumber height)] ++ paint.shown) "" []
  | circle id cx cy r paint =>
      .mk "circle" ([("id", id), ("cx", drawnNumber cx), ("cy", drawnNumber cy),
        ("r", drawnNumber r)] ++ paint.shown) "" []
  | text id x y content paint =>
      .mk "text" ([("id", id), ("x", drawnNumber x), ("y", drawnNumber y),
        ("dominant-baseline", "hanging"), ("font-family", "sans-serif")] ++ paint.shown) content []
  | line id x1 y1 x2 y2 paint =>
      .mk "line" ([("id", id), ("x1", drawnNumber x1), ("y1", drawnNumber y1),
        ("x2", drawnNumber x2), ("y2", drawnNumber y2)] ++ paint.shown) "" []
  | polygon id points paint =>
      .mk "polygon" ((id.toList.map fun id => ("id", id)) ++ [("points", pointsText points)] ++
        paint.shown) "" []

theorem Markup.present_append (first second : List (String × Option String)) :
    present (first ++ second) = present first ++ present second :=
  List.filterMap_append

theorem Paint.present_attributes (paint : Paint Float) :
    Markup.present paint.attributes = paint.shown := by
  obtain ⟨fill, stroke, width⟩ := paint
  cases fill <;> cases stroke <;> cases width <;> rfl

theorem Paint.isName_of_mem_shown (paint : Paint Float) :
    ∀ entry ∈ paint.shown, Markup.IsName entry.1 := by
  intro entry member
  obtain ⟨fill, stroke, width⟩ := paint
  simp only [shown, List.mem_append, List.mem_map] at member
  rcases member with (⟨_, _, rfl⟩ | ⟨_, _, rfl⟩) | ⟨_, _, rfl⟩
  · exact show Markup.IsName "fill" by decide
  · exact show Markup.IsName "stroke" by decide
  · exact show Markup.IsName "stroke-width" by decide

/-- Attributes of given names and those of a paint have names. -/
theorem Paint.isName_of_mem_present (paint : Paint Float) (keys : List String)
    {attributes : List (String × Option String)}
    (same : (Markup.present attributes).map Prod.fst = keys)
    (named : ∀ key ∈ keys, Markup.IsName key) :
    ∀ entry ∈ Markup.present (attributes ++ paint.attributes), Markup.IsName entry.1 := by
  intro entry member
  rw [Markup.present_append, paint.present_attributes] at member
  rcases List.mem_append.mp member with own | painted
  · apply named
    rw [← same]
    exact List.mem_map_of_mem own
  · exact paint.isName_of_mem_shown entry painted

namespace Element

theorem ownText_markup (element : Element Float) : element.markup.ownText = "" := by
  cases element <;> rfl

/-- The markup of an element is read as what the element says. -/
theorem elements_markup (element : Element Float) :
    element.markup.elements = [element.shown] := by
  cases element with
  | text id x y content paint =>
      simp only [markup, Markup.present_append, Paint.present_attributes, Markup.elements,
        Markup.ownTextAll, Markup.ownText, String.append_empty]
      rfl
  | polygon id points paint =>
      cases id <;>
        simp only [markup, Markup.present_append, Paint.present_attributes, Markup.elements] <;> rfl
  | _ =>
      simp only [markup, Markup.present_append, Paint.present_attributes, Markup.elements]
      rfl

theorem named_markup (element : Element Float) : element.markup.Named := by
  cases element with
  | rect id x y width height paint =>
      exact ⟨by decide,
        paint.isName_of_mem_present ["id", "x", "y", "width", "height"] rfl (by decide)⟩
  | circle id cx cy r paint =>
      exact ⟨by decide, paint.isName_of_mem_present ["id", "cx", "cy", "r"] rfl (by decide)⟩
  | text id x y content paint =>
      exact ⟨by decide,
        paint.isName_of_mem_present ["id", "x", "y", "dominant-baseline", "font-family"] rfl
          (by decide),
        trivial, trivial⟩
  | line id x1 y1 x2 y2 paint =>
      exact ⟨by decide, paint.isName_of_mem_present ["id", "x1", "y1", "x2", "y2"] rfl (by decide)⟩
  | polygon id points paint =>
      refine ⟨by decide, ?_⟩
      cases id with
      | none => exact paint.isName_of_mem_present ["points"] rfl (by decide)
      | some id => exact paint.isName_of_mem_present ["id", "points"] rfl (by decide)

end Element

theorem ownTextAll_elements (elements : List (Element Float)) :
    Markup.ownTextAll (elements.map Element.markup) = "" := by
  induction elements with
  | nil => rfl
  | cons first rest ih =>
      rw [List.map_cons, Markup.ownTextAll, first.ownText_markup, ih]
      rfl

theorem elementsAll_elements (elements : List (Element Float)) :
    Markup.elementsAll (elements.map Element.markup) = elements.map Element.shown := by
  induction elements with
  | nil => rfl
  | cons first rest ih =>
      rw [List.map_cons, Markup.elementsAll, first.elements_markup, ih]
      rfl

theorem namedAll_elements (elements : List (Element Float)) :
    Markup.NamedAll (elements.map Element.markup) := by
  induction elements with
  | nil => exact trivial
  | cons first rest ih => exact ⟨first.named_markup, ih⟩

/-- The text of a document is markup, and is read as the page with the elements of the document on
it in their order: each with its kind, its attributes as they were given and its text. -/
theorem svg_reads_back (document : Document Float) :
    Markup.read? document.svg =
      some (.mk "svg" [("xmlns", "http://www.w3.org/2000/svg"),
        ("width", drawnNumber document.width), ("height", drawnNumber document.height)] ""
        (document.elements.map Element.shown)) := by
  have named : document.markup.Named := by
    have keys : ∀ key ∈ ["xmlns", "width", "height"], Markup.IsName key := by decide
    refine ⟨by decide, ?_, namedAll_elements document.elements⟩
    intro entry member
    exact keys entry.1 (List.mem_map_of_mem member)
  rw [Document.svg, Document.markup, Markup.read?_render_pair named, ownTextAll_elements,
    elementsAll_elements]
  rfl

end SceneLayout
