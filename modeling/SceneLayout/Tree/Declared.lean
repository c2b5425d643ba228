import SceneLayout.Json.Reader
import SceneLayout.Tree.Basic
import SceneLayout.Tree.Check
import SceneLayout.Tree.Path
import SceneLayout.Tree.Property

/-!
# Trees from declarations

A declared value becomes a scene tree in two steps. First the common fields of all
nodes are checked; then the properties of each node are read in preorder, and the
first refused property ends the reading. Properties that a type does not use are
not looked at.
-/

namespace SceneLayout

/-- Why a node was refused. -/
inductive NodeError where
  /-- A property or the target was refused, in a node of the type at the path. -/
  | refused (type : Option String) (path : TreePath) (refusal : Refusal)
  /-- A property was refused, and its value cannot be shown. The node is not told. -/
  | unshown

/-- The error of a property in a node of the type at the path. -/
def PropertyError.inNode (type : Option String) (path : TreePath) : PropertyError → NodeError
  | refused refusal => .refused type path refusal
  | unshown => .unshown

namespace NodeError

/-- The message of a refusal, with the type and the place of the node in front. -/
def message : NodeError → String
  | refused type path refusal => type.getD "None" ++ "@" ++ path.text ++ ": " ++ refusal.message
  | unshown =>
      "Exceeds the limit (" ++ toString Json.mostDigits ++ " digits) for integer string " ++
        "conversion; use sys.set_int_max_str_digits() to increase the limit"

end NodeError

/-- Why a declaration was refused. -/
inductive DeclarationError where
  | faults (faults : List Fault)
  | node (error : NodeError)
  | unsupportedFormat (format : String)

namespace DeclarationError

/-- The first line of the message of a refusal. -/
def message : DeclarationError → String
  | faults _ => "invalid scene:"
  | node error => error.message
  | unsupportedFormat format => "Unsupported scene format: " ++ format

end DeclarationError

namespace Style

/-- The paint of a node. The width has two spellings; the first one counts if it is present. -/
def ofProps (props : Entries Json) : Except PropertyError (Style Binary64) := do
  let widthName := if Entries.contains props "stroke-width" then "stroke-width" else "strokeWidth"
  let fill ← Property.optionalText props "fill"
  let stroke ← Property.optionalText props "stroke"
  let strokeWidth ← Property.optionalNumber props widthName
  return ⟨fill, stroke, strokeWidth⟩

end Style

namespace Shape

open Property

/-- The shape of a node with a known type. -/
def ofProps (type : Option String) (props : Entries Json) :
    Except PropertyError (Shape Binary64) :=
  match type with
  | some "Group" => .ok .group
  | some "Rect" => do
      let x ← number props "x"
      let y ← number props "y"
      let width ← number props "width"
      let height ← number props "height"
      return .rect x y width height (← Style.ofProps props)
  | some "Circle" => do
      let r ← nonNegative props "r"
      let x ← number props "x"
      let y ← number props "y"
      return .circle r x y (← Style.ofProps props)
  | some "Text" => do
      let content ← optionalText props "text"
      let x ← number props "x"
      let y ← number props "y"
      let width ← optionalNumber props "width"
      let height ← optionalNumber props "height"
      return .text (content.getD "") x y width height (← Style.ofProps props)
  | some "Arrow" => do
      return .arrow (← Style.ofProps props)
  | some "Background" => do
      let padding ← nonNegative props "padding"
      return .background padding (← Style.ofProps props)
  | some "StackV" => stackOfProps .y
  | some "StackH" => stackOfProps .x
  | some "Align" => do
      let (axis, alignment) ← axisAndAlignment props
      return .align axis alignment
  | some "Distribute" => do
      let axis ← distributionAxis props
      return .distribute axis (← nonNegative props "spacing")
  | other => .ok (.container other)
where
  stackOfProps (axis : Axis) : Except PropertyError (Shape Binary64) := do
    let alignment ← crossAlignment axis props
    return .stack axis (← number props "spacing") alignment

end Shape

namespace Tree

mutual

/-- The tree of a raw node at a place. A reference keeps nothing but its target. -/
def ofRaw (path : TreePath) : RawNode → Except NodeError (Tree Binary64)
  | ⟨type, id, key, props, children, target⟩ =>
      if type == some "Ref" then
        match target with
        | some target =>
            if target.isEmpty then .error (.refused type path .missingTarget) else .ok (.ref target)
        | none => .error (.refused type path .missingTarget)
      else
        match Shape.ofProps type props with
        | .error error => .error (error.inNode type path)
        | .ok shape =>
            match ofRawAll path 0 children with
            | .error error => .error error
            | .ok children => .ok (.node key id shape children)

/-- The trees of raw children, of which the first has the given index. -/
def ofRawAll (path : TreePath) : Nat → List RawNode → Except NodeError (List (Tree Binary64))
  | _, [] => .ok []
  | index, raw :: rest =>
      match ofRaw (path.child index) raw with
      | .error error => .error error
      | .ok tree =>
          match ofRawAll path (index + 1) rest with
          | .error error => .error error
          | .ok trees => .ok (tree :: trees)

end

/-- The tree that a value declares. A text is read as JSON first. -/
def ofJson? (value : Json) : Except DeclarationError (Tree Binary64) :=
  match declaredValue value with
  | none => .error (.faults [⟨[], .unreadable⟩])
  | some value =>
      match RawNode.ofJson? value with
      | .error faults => .error (.faults faults)
      | .ok raw => (ofRaw .top raw).mapError .node
where
  declaredValue : Json → Option Json
    | .string text => Json.read? text
    | value => some value

/-- The tree that a value declares in a named format, of which JSON is the only one. -/
def ofFormat? (format : String) (value : Json) : Except DeclarationError (Tree Binary64) :=
  if format = "json" then ofJson? value else .error (.unsupportedFormat format)

end Tree

end SceneLayout
