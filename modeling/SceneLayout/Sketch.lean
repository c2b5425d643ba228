import SceneLayout.Rendering

/-!
# Sketching scenes

Declared trees built call by call. A node takes its id from the `name` among its
properties; a node without a name takes one from a counter. Starting a scene resets
the counter, so the same calls give the same tree.

## Implementation notes

Every call gives the declared node together with the counter after it. Properties
are kept as they are given; only `name`, `direction` and an alignment with an axis
letter are taken apart.
-/

namespace SceneLayout.Sketch

/-- The number of the last generated name. -/
abbrev Counter := Nat

/-- The next generated name. -/
def freshName (stem : String) (counter : Counter) : String × Counter :=
  (stem ++ toString (counter + 1), counter + 1)

/-- The id of a node and its properties without the name. -/
def named (stem : String) (props : Entries Json) (counter : Counter) :
    Json × Entries Json × Counter :=
  let rest := Entries.erase "name" props
  match Json.member props "name" with
  | .null =>
      let (name, counter) := freshName stem counter
      (.string name, rest, counter)
  | name => (name, rest, counter)

/-- A declared node without children. -/
def leaf (type : String) (id : Json) (props : Entries Json) : Json :=
  .object [("type", .string type), ("id", id), ("props", .object props)]

/-- A declared node with children. -/
def branch (type : String) (id : Json) (props : Entries Json) (children : List Json) : Json :=
  .object [("type", .string type), ("id", id), ("props", .object props),
    ("children", .array children)]

/-- A circle. -/
def circle (props : Entries Json) (counter : Counter) : Json × Counter :=
  let (id, props, counter) := named "circle" props counter
  (leaf "Circle" id props, counter)

/-- A rectangle. -/
def rect (props : Entries Json) (counter : Counter) : Json × Counter :=
  let (id, props, counter) := named "rect" props counter
  (leaf "Rect" id props, counter)

/-- A text. -/
def text (props : Entries Json) (content : Json) (counter : Counter) : Json × Counter :=
  let (id, props, counter) := named "text" props counter
  (leaf "Text" id (Entries.insert "text" content props), counter)

/-- A reference to a node. -/
def ref (target : Json) : Json :=
  .object [("type", .string "Ref"), ("target", target)]

/-- A stack along the first axis. -/
def stackH (props : Entries Json) (children : List Json) (counter : Counter) : Json × Counter :=
  let (id, props, counter) := named "stackH" props counter
  (branch "StackH" id props children, counter)

/-- A stack along the second axis. -/
def stackV (props : Entries Json) (children : List Json) (counter : Counter) : Json × Counter :=
  let (id, props, counter) := named "stackV" props counter
  (branch "StackV" id props children, counter)

/-- A box around a child, if there is one. -/
def background (props : Entries Json) (child : Json) (counter : Counter) : Json × Counter :=
  let (id, props, counter) := named "bg" props counter
  (branch "Background" id props (if child.isVoid then [] else [child]), counter)

/-- The properties of a distribute node: a direction is spelled as an axis. -/
def distributeProps (props : Entries Json) : Entries Json :=
  let rest := Entries.erase "direction" props
  match Json.member props "direction" with
  | .string "vertical" => Entries.insert "axis" (.string "y") rest
  | .string "horizontal" => Entries.insert "axis" (.string "x") rest
  | _ => rest

/-- Entries at equal distances. -/
def distribute (props : Entries Json) (children : List Json) (counter : Counter) :
    Json × Counter :=
  let (id, props, counter) := named "dist" props counter
  (branch "Distribute" id (distributeProps props) children, counter)

/-- The properties of an align node: without an axis, the last letter of the alignment gives it. -/
def alignProps (props : Entries Json) : Entries Json :=
  if Entries.contains props "axis" then props
  else
    match Json.member props "alignment" with
    | .string alignment =>
        match Property.splitAxis alignment with
        | some (axis, stem) =>
            Entries.insert "alignment" (.string stem)
              (Entries.insert "axis" (.string axis.name) props)
        | none => props
    | _ => props

/-- Aligned entries. -/
def align (props : Entries Json) (children : List Json) (counter : Counter) : Json × Counter :=
  let (id, props, counter) := named "align" props counter
  (branch "Align" id (alignProps props) children, counter)

/-- An arrow from one node to another. -/
def arrow (source target : Json) (props : Entries Json) (counter : Counter) : Json × Counter :=
  let (id, props, counter) := named "arrow" props counter
  (branch "Arrow" id props [source, target], counter)

/-- A whole scene; it resets the counter. -/
def scene (children : List Json) : Json × Counter :=
  (.object [("type", .string "Group"), ("id", .string "scene"), ("children", .array children)], 0)

end SceneLayout.Sketch
