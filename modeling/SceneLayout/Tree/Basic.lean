import SceneLayout.Geometry.Axis

/-!
# Scene trees

A scene is declared as a tree. A node is either a reference to a node declared
before it, or a shape with optional names and with children. Numbers are of any
type: doubles as they were read, or exact numbers.

## Implementation notes

Functions on trees come in pairs, one for a tree and one for a list of trees, and
recurse on the structure of the tree.
-/

namespace SceneLayout

universe u v

/-- The paint of a shape, as far as it is declared. -/
structure Style (α : Type u) where
  fill : Option String
  stroke : Option String
  strokeWidth : Option α

/-- What a node is, apart from its names and its children. -/
inductive Shape (α : Type u) where
  | group
  /-- A node of a type with no meaning here; only its children count. -/
  | container (type : Option String)
  | rect (x y width height : α) (style : Style α)
  | circle (r x y : α) (style : Style α)
  /-- A text; an extent that is not declared is estimated. -/
  | text (content : String) (x y : α) (width height : Option α) (style : Style α)
  /-- An arrow from the first child to the second. -/
  | arrow (style : Style α)
  /-- A rectangle around the first child, larger by the padding on every side. -/
  | background (padding : α) (style : Style α)
  /-- Children one after the other along the axis. -/
  | stack (axis : Axis) (spacing : α) (alignment : Alignment)
  | align (axis : Axis) (alignment : Alignment)
  | distribute (axis : Axis) (spacing : α)

/-- A scene tree. -/
inductive Tree (α : Type u) where
  | ref (target : String)
  | node (key id : Option String) (shape : Shape α) (children : List (Tree α))

variable {α : Type u} {β : Type v}

/-- Applies a function to the number of a style. -/
def Style.map (f : α → β) (style : Style α) : Style β :=
  { fill := style.fill, stroke := style.stroke, strokeWidth := style.strokeWidth.map f }

namespace Shape

/-- The name of the type in a declaration. -/
def typeName : Shape α → Option String
  | group => some "Group"
  | container type => type
  | rect .. => some "Rect"
  | circle .. => some "Circle"
  | text .. => some "Text"
  | arrow .. => some "Arrow"
  | background .. => some "Background"
  | stack .y .. => some "StackV"
  | stack .x .. => some "StackH"
  | align .. => some "Align"
  | distribute .. => some "Distribute"

/-- Applies a function to every number of a shape. -/
def map (f : α → β) : Shape α → Shape β
  | group => .group
  | container type => .container type
  | rect x y width height style => .rect (f x) (f y) (f width) (f height) (style.map f)
  | circle r x y style => .circle (f r) (f x) (f y) (style.map f)
  | text content x y width height style =>
      .text content (f x) (f y) (width.map f) (height.map f) (style.map f)
  | arrow style => .arrow (style.map f)
  | background padding style => .background (f padding) (style.map f)
  | stack axis spacing alignment => .stack axis (f spacing) alignment
  | align axis alignment => .align axis alignment
  | distribute axis spacing => .distribute axis (f spacing)

@[simp] theorem typeName_map (f : α → β) (shape : Shape α) :
    (shape.map f).typeName = shape.typeName := by
  cases shape with
  | stack axis spacing alignment => cases axis <;> rfl
  | _ => rfl

end Shape

namespace Tree

mutual

/-- Applies a function to every number of a tree. -/
def map (f : α → β) : Tree α → Tree β
  | ref target => .ref target
  | node key id shape children => .node key id (shape.map f) (mapAll f children)

/-- Applies a function to every number of a list of trees. -/
def mapAll (f : α → β) : List (Tree α) → List (Tree β)
  | [] => []
  | tree :: rest => tree.map f :: mapAll f rest

end

end Tree

end SceneLayout
