import SceneLayout.Entries

/-!
# Markup

Elements with attributes, written as text. An element is either one self-closing
tag, or a pair of tags with its children between them. In texts and in attribute
values every character with a meaning in markup is replaced by an entity, so data
never ends the place it stands in.
-/

namespace SceneLayout

/-- A piece of markup. -/
inductive Markup where
  | text (content : String)
  /-- A self-closing tag. -/
  | single (name : String) (attributes : List (String × String))
  /-- A pair of tags around children. -/
  | pair (name : String) (attributes : List (String × String)) (children : List Markup)

namespace Markup

/-- A character of a text between tags. -/
def escapeTextChar : Char → List Char
  | '&' => ['&', 'a', 'm', 'p', ';']
  | '>' => ['&', 'g', 't', ';']
  | '<' => ['&', 'l', 't', ';']
  | c => [c]

/-- A character of an attribute value between double quotes. -/
def escapeValueChar : Char → List Char
  | '"' => ['&', 'q', 'u', 'o', 't', ';']
  | c => escapeTextChar c

/-- A text between tags. -/
def escapeText (content : String) : String :=
  String.ofList (content.toList.flatMap escapeTextChar)

/-- An attribute value between double quotes. -/
def escapeValue (value : String) : String :=
  String.ofList (value.toList.flatMap escapeValueChar)

@[simp] theorem toList_escapeText (content : String) :
    (escapeText content).toList = content.toList.flatMap escapeTextChar := by
  simp [escapeText]

@[simp] theorem toList_escapeValue (value : String) :
    (escapeValue value).toList = value.toList.flatMap escapeValueChar := by
  simp [escapeValue]

/-- No escaped character of a value is a quote. -/
theorem quote_not_mem_escapeValueChar (c : Char) : '"' ∉ escapeValueChar c := by
  unfold escapeValueChar
  split
  · decide
  · next h =>
      unfold escapeTextChar
      split
      · decide
      · decide
      · decide
      · simpa using Ne.symm h

/-- An attribute with the blank before it. -/
def renderAttribute (entry : String × String) : String :=
  " " ++ entry.1 ++ "=\"" ++ escapeValue entry.2 ++ "\""

/-- The tag or tags of an element around what has been written for its children. -/
def renderElement (name : String) (attributes : Entries String) (body : Option String) : String :=
  let start := "<" ++ name ++ String.join (attributes.map renderAttribute)
  match body with
  | none => start ++ " />"
  | some body => start ++ ">" ++ body ++ "</" ++ name ++ ">"

mutual

/-- The text of a piece of markup. -/
def render : Markup → String
  | text content => escapeText content
  | single name attributes => renderElement name attributes none
  | pair name attributes children => renderElement name attributes (some (renderAll children))

/-- The texts of pieces of markup, one after the other. -/
def renderAll : List Markup → String
  | [] => ""
  | first :: rest => first.render ++ renderAll rest

end

/-- The attributes that have a value. -/
def present (attributes : List (String × Option String)) : Entries String :=
  attributes.filterMap fun entry => entry.2.map (entry.1, ·)

end Markup

end SceneLayout
