import SceneLayout.Geometry.Axis
import SceneLayout.Json.Display

/-!
# Reading properties

The readers of single properties. A property that is absent or null takes its
default; any other value must be of the right kind. A refused value is shown, and one
that cannot be shown is an error of its own.

## Implementation notes

The axis and the alignment have two spellings each, and a void value of the first
spelling leaves the choice to the second. An alignment may also carry the axis as
a last letter.
-/

namespace SceneLayout

/-- Why a property was refused; a refused value is told as it is shown. -/
inductive Refusal where
  | notFinite (name shown : String)
  | tooLarge (name : String)
  | negative (name : String) (value : Binary64)
  | notText (name shown : String)
  | unknownAxis (shown : String)
  | unknownAlignment (shown : String) (choices : List String)
  | missingTarget

namespace Refusal

/-- The message of a refusal. -/
def message : Refusal → String
  | notFinite name shown => "prop '" ++ name ++ "' must be a finite number, got " ++ shown
  | tooLarge name => "prop '" ++ name ++ "' is too large to represent"
  | negative name value => "prop '" ++ name ++ "' must be >= 0, got " ++ value.written
  | notText name shown => "prop '" ++ name ++ "' must be a string, got " ++ shown
  | unknownAxis shown => "unknown axis " ++ shown ++ "; use x, y, horizontal or vertical"
  | unknownAlignment shown choices =>
      "unknown alignment " ++ shown ++ "; use " ++ ", ".intercalate choices
  | missingTarget => "Ref node requires a 'target'"

end Refusal

/-- Why a property was not read. -/
inductive PropertyError where
  | refused (refusal : Refusal)
  /-- The property was refused, and its value cannot be shown. -/
  | unshown

namespace PropertyError

/-- The refusal of a value, which fails by itself if the value cannot be shown. -/
def showing (value : Json) (refusal : String → Refusal) : PropertyError :=
  match value.display? with
  | some shown => .refused (refusal shown)
  | none => .unshown

end PropertyError

namespace Property

open PropertyError Refusal

/-- A finite number, unless the value is null. -/
def optionalNumber (props : Entries Json) (name : String) :
    Except PropertyError (Option Binary64) :=
  match Json.member props name with
  | .null => .ok none
  | .int value =>
      let number := Binary64.ofInt value
      if number.isFinite then .ok (some number) else .error (.refused (tooLarge name))
  | .float value =>
      if value.isFinite then .ok (some value) else .error (showing (.float value) (notFinite name))
  | value => .error (showing value (notFinite name))

/-- A finite number, zero by default. -/
def number (props : Entries Json) (name : String) : Except PropertyError Binary64 := do
  return (← optionalNumber props name).getD (.zero false)

/-- A finite number that is not below zero. -/
def nonNegative (props : Entries Json) (name : String) : Except PropertyError Binary64 := do
  let value ← number props name
  if value.isNegative then .error (.refused (negative name value)) else .ok value

/-- A text, unless the value is null. -/
def optionalText (props : Entries Json) (name : String) : Except PropertyError (Option String) :=
  match Json.member props name with
  | .null => .ok none
  | .string value => .ok (some value)
  | value => .error (showing value (notText name))

/-- The axes by their names. -/
def axisNames : Entries Axis :=
  [("x", .x), ("y", .y), ("horizontal", .x), ("vertical", .y)]

/-- The alignments along an axis by their names. -/
def alignmentNames : Axis → Entries Alignment
  | .x => [("left", .start), ("center", .center), ("right", .finish)]
  | .y => [("top", .start), ("center", .center), ("bottom", .finish)]

/-- The alignments across a stack: the center may be named with the axis. -/
def crossAlignmentNames : Axis → Entries Alignment
  | .x => alignmentNames .x ++ [("centerX", .center)]
  | .y => alignmentNames .y ++ [("centerY", .center)]

/-- The axis that a value names. -/
def axisNamed (value : Json) : Except PropertyError Axis :=
  match value with
  | .string name =>
      match Entries.find? axisNames name with
      | some axis => .ok axis
      | none => .error (showing value unknownAxis)
  | _ => .error (showing value unknownAxis)

/-- The alignment that a value names. -/
def alignmentNamed (names : Entries Alignment) (value : Json) : Except PropertyError Alignment :=
  match value with
  | .string name =>
      match Entries.find? names name with
      | some alignment => .ok alignment
      | none => .error (showing value (unknownAlignment · (Entries.keys names)))
  | _ => .error (showing value (unknownAlignment · (Entries.keys names)))

/-- The axis named by the last letter of a text, and the text before that letter. -/
def splitAxis (text : String) : Option (Axis × String) :=
  let chars := text.toList
  match chars.getLast? with
  | some 'X' => some (.x, String.ofList chars.dropLast)
  | some 'Y' => some (.y, String.ofList chars.dropLast)
  | _ => none

/-- The axis and the alignment values that are left once a last letter is taken off. The letter
names the axis if nothing else does, and it is taken off only if it agrees with the axis. -/
def withoutAxisLetter (axisValue alignmentValue : Json) : Except PropertyError (Json × Json) :=
  match alignmentValue with
  | .string text =>
      match splitAxis text with
      | some (letter, stem) => do
          let axisValue := if axisValue.isNull then .string letter.name else axisValue
          let axis ← axisNamed axisValue
          return (axisValue, if axis = letter then .string stem else alignmentValue)
      | none => .ok (axisValue, alignmentValue)
  | _ => .ok (axisValue, alignmentValue)

/-- The axis and the alignment of an align node. -/
def axisAndAlignment (props : Entries Json) : Except PropertyError (Axis × Alignment) := do
  let axisValue := (Json.member props "axis").orElse (Json.member props "direction")
  let alignmentValue := (Json.member props "alignment").orElse (Json.member props "type")
  let (axisValue, alignmentValue) ← withoutAxisLetter axisValue alignmentValue
  let axis ← axisNamed (axisValue.orElse (.string "x"))
  let alignment ←
    if alignmentValue.isNull then pure .start
    else alignmentNamed (alignmentNames axis) alignmentValue
  return (axis, alignment)

/-- The axis of a distribute node. -/
def distributionAxis (props : Entries Json) : Except PropertyError Axis :=
  axisNamed (((Json.member props "axis").orElse (Json.member props "direction")).orElse
    (.string "x"))

/-- The alignment across a stack along the given axis. -/
def crossAlignment (axis : Axis) (props : Entries Json) : Except PropertyError Alignment :=
  let value := Json.member props "alignment"
  if value.isNull then .ok .start else alignmentNamed (crossAlignmentNames axis.cross) value

end Property

end SceneLayout
