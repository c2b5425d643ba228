import SceneLayout.Text.Printable

/-!
# Quoted text

How a text is shown inside a message: between single quotes, or between double
quotes when it holds a single quote and no double one. A backslash, the enclosing
quote and every character that is not printable are escaped, so a quoted text is
one line.
-/

namespace SceneLayout.Quoted

/-- The lower-case hexadecimal digits of a number, at least `width` of them. -/
def hexDigits (width n : Nat) : List Char :=
  let digits := Nat.toDigits 16 n
  List.replicate (width - digits.length) '0' ++ digits

/-- A code point as a backslash, a letter for the width, and two, four or eight digits. -/
def codeEscape (n : Nat) : List Char :=
  if n < 0x100 then '\\' :: 'x' :: hexDigits 2 n
  else if n < 0x10000 then '\\' :: 'u' :: hexDigits 4 n
  else '\\' :: 'U' :: hexDigits 8 n

/-- A character between quotes of the given kind. -/
def escapeChar (quote c : Char) : List Char :=
  if c = quote || c = '\\' then ['\\', c]
  else if c = '\n' then ['\\', 'n']
  else if c = '\r' then ['\\', 'r']
  else if c = '\t' then ['\\', 't']
  else if isPrintable c then [c]
  else codeEscape c.toNat

/-- The quote that encloses a text. -/
def enclosing (chars : List Char) : Char :=
  if chars.contains '\'' && !chars.contains '"' then '"' else '\''

end SceneLayout.Quoted

namespace SceneLayout

/-- A text as it is shown in a message. -/
def quoted (text : String) : String :=
  let chars := text.toList
  let quote := Quoted.enclosing chars
  String.ofList (quote :: chars.flatMap (Quoted.escapeChar quote) ++ [quote])

end SceneLayout
