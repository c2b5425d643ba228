import SceneLayout.Drawing.Document
import SceneLayout.Markup.Basic
import SceneLayout.Number.Written

/-!
# Documents as SVG

The markup of a document: one `svg` element with the size of the page, and one
element for each element of the document, painted by its attributes.
-/

namespace SceneLayout

/-- The namespace of SVG elements. -/
def svgNamespace : String := "http://www.w3.org/2000/svg"

/-- A machine double as a drawn number. -/
def drawnNumber (x : Float) : String := (Binary64.ofFloat x).drawn

namespace Paint

/-- The attributes of a paint. -/
def attributes (paint : Paint Float) : List (String × Option String) :=
  [("fill", paint.fill), ("stroke", paint.stroke),
    ("stroke-width", paint.strokeWidth.map drawnNumber)]

end Paint

namespace Element

/-- The points of a polygon, with blanks between them. -/
def pointsText (points : List (Vec Float)) : String :=
  " ".intercalate (points.map fun point => drawnNumber point.x ++ "," ++ drawnNumber point.y)

/-- Attributes with numbers. -/
def measures (entries : List (String × Float)) : List (String × Option String) :=
  entries.map fun entry => (entry.1, some (drawnNumber entry.2))

/-- The markup of an element. -/
def markup : Element Float → Markup
  | rect id x y width height paint =>
      .single "rect" <| Markup.present <| ("id", some id) ::
        measures [("x", x), ("y", y), ("width", width), ("height", height)] ++ paint.attributes
  | circle id cx cy r paint =>
      .single "circle" <| Markup.present <| ("id", some id) ::
        measures [("cx", cx), ("cy", cy), ("r", r)] ++ paint.attributes
  | text id x y content paint =>
      let attributes := ("id", some id) :: measures [("x", x), ("y", y)] ++
        [("dominant-baseline", some "hanging"), ("font-family", some "sans-serif")] ++
        paint.attributes
      .pair "text" (Markup.present attributes) [.text content]
  | line id x1 y1 x2 y2 paint =>
      .single "line" <| Markup.present <| ("id", some id) ::
        measures [("x1", x1), ("y1", y1), ("x2", x2), ("y2", y2)] ++ paint.attributes
  | polygon id points paint =>
      .single "polygon" <| Markup.present <|
        [("id", id), ("points", some (pointsText points))] ++ paint.attributes

end Element

namespace Document

/-- The markup of a document. -/
def markup (document : Document Float) : Markup :=
  .pair "svg"
    [("xmlns", svgNamespace), ("width", drawnNumber document.width),
      ("height", drawnNumber document.height)]
    (document.elements.map Element.markup)

/-- The SVG text of a document. -/
def svg (document : Document Float) : String := document.markup.render

end Document

end SceneLayout
