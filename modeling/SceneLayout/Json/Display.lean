import SceneLayout.Json.Basic
import SceneLayout.Number.Written
import SceneLayout.Text.Quoted

/-!
# Values in messages

How a JSON value is shown inside a message: on one line, with quoted texts, whole
numbers in full and doubles as the shortest text that reads back. A value cannot be
shown if a whole number in it has too many digits.
-/

namespace SceneLayout.Json

/-- The digits of a whole number, with its sign; there are none if they would be too many. -/
def wholeText? (value : Int) : Option String :=
  if value.natAbs < Nat.pow 10 mostDigits then some (toString value) else none

mutual

/-- The text of a value, if it can be shown. -/
def display? : Json → Option String
  | null => some "None"
  | bool value => some (if value then "True" else "False")
  | int value => wholeText? value
  | float value => some value.written
  | string value => some (quoted value)
  | array items => (displayItems? items).map fun texts => "[" ++ ", ".intercalate texts ++ "]"
  | object members =>
      (displayMembers? members).map fun texts => "\x7b" ++ ", ".intercalate texts ++ "\x7d"

/-- The texts of the items of an array, if all of them can be shown. -/
def displayItems? : List Json → Option (List String)
  | [] => some []
  | item :: rest => do
      let text ← item.display?
      let texts ← displayItems? rest
      return text :: texts

/-- The texts of the members of an object, if all of them can be shown. -/
def displayMembers? : List (String × Json) → Option (List String)
  | [] => some []
  | (key, value) :: rest => do
      let text ← value.display?
      let texts ← displayMembers? rest
      return (quoted key ++ ": " ++ text) :: texts

end

end SceneLayout.Json
