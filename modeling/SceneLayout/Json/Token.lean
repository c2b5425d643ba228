import SceneLayout.Json.Basic
import SceneLayout.Number.Decimal

/-!
# Words of JSON text

A JSON text is first cut into words: brackets, separators, texts and the other
scalar values. Words follow the JSON grammar strictly; the names of NaN and of
the infinities are accepted beside the numbers of the grammar.
-/

namespace SceneLayout.Json

/-- A word of JSON text. -/
inductive Token where
  | openArray
  | closeArray
  | openObject
  | closeObject
  | comma
  | colon
  | text (value : String)
  | scalar (value : Json)

namespace Token

/-- The value of a hexadecimal digit. -/
def hexDigit? (c : Char) : Option Nat :=
  if '0' ≤ c ∧ c ≤ '9' then some (c.toNat - '0'.toNat)
  else if 'a' ≤ c ∧ c ≤ 'f' then some (c.toNat - 'a'.toNat + 10)
  else if 'A' ≤ c ∧ c ≤ 'F' then some (c.toNat - 'A'.toNat + 10)
  else none

/-- The code unit written as four hexadecimal digits. -/
def codeUnit? (a b c d : Char) : Option Nat := do
  return ((((← hexDigit? a) * 16 + (← hexDigit? b)) * 16 + (← hexDigit? c)) * 16 + (← hexDigit? d))

/-- The first of the two code units of a character beyond the basic plane. -/
def isHighUnit (unit : Nat) : Bool := 0xD800 ≤ unit && unit < 0xDC00

/-- The second of the two code units of a character beyond the basic plane. -/
def isLowUnit (unit : Nat) : Bool := 0xDC00 ≤ unit && unit < 0xE000

/-- The character that a backslash and a letter stand for. -/
def simpleEscape? : Char → Option Char
  | '"' => some '"'
  | '\\' => some '\\'
  | '/' => some '/'
  | 'b' => some (Char.ofNat 0x08)
  | 'f' => some (Char.ofNat 0x0C)
  | 'n' => some '\n'
  | 'r' => some '\r'
  | 't' => some '\t'
  | _ => none

/-- The characters of a text up to its closing quote, and what follows the quote, given the
characters already read, last first. Control characters must be escaped, and the two code units of a
character must stand together. -/
def scanText (before : List Char) : List Char → Option (List Char × List Char)
  | [] => none
  | '"' :: rest => some (before.reverse, rest)
  | '\\' :: 'u' :: a :: b :: c :: d :: '\\' :: 'u' :: e :: f :: g :: h :: rest =>
      match codeUnit? a b c d with
      | none => none
      | some unit =>
          if isHighUnit unit then
            match codeUnit? e f g h with
            | none => none
            | some second =>
                if isLowUnit second then
                  let code := 0x10000 + (unit - 0xD800) * 0x400 + (second - 0xDC00)
                  scanText (Char.ofNat code :: before) rest
                else none
          else if isLowUnit unit then none
          else scanText (Char.ofNat unit :: before) ('\\' :: 'u' :: e :: f :: g :: h :: rest)
  | '\\' :: 'u' :: a :: b :: c :: d :: rest =>
      match codeUnit? a b c d with
      | none => none
      | some unit =>
          if isHighUnit unit || isLowUnit unit then none
          else scanText (Char.ofNat unit :: before) rest
  | '\\' :: c :: rest =>
      match simpleEscape? c with
      | none => none
      | some char => scanText (char :: before) rest
  | c :: rest => if 0x20 ≤ c.toNat && c != '\\' then scanText (c :: before) rest else none

/-- The digits at the front of the text, at least one, and the rest. -/
def scanDigits (chars : List Char) : Option (List Char × List Char) :=
  match chars.span Char.isDigit with
  | ([], _) => none
  | found => some found

/-- The digits of a number before a point; a zero ends them. -/
def scanWhole : List Char → Option (List Char × List Char)
  | '0' :: rest => some (['0'], rest)
  | chars => scanDigits chars

/-- The decimal places after a point, if there is a point. -/
def scanPlaces : List Char → Option (Option (List Char) × List Char)
  | '.' :: rest => (scanDigits rest).map fun (digits, rest) => (some digits, rest)
  | rest => some (none, rest)

/-- The exponent after its letter, if there is one. -/
def scanExponent : List Char → Option (Option Int × List Char)
  | c :: rest =>
      if c = 'e' ∨ c = 'E' then do
        let (negative, rest) := match rest with
          | '+' :: rest => (false, rest)
          | '-' :: rest => (true, rest)
          | rest => (false, rest)
        let (digits, rest) ← scanDigits rest
        let value : Int := Decimal.valueOfDigits digits
        return (some (if negative then -value else value), rest)
      else some (none, c :: rest)
  | [] => some (none, [])

/-- A number whose sign has been read: a double if a point or an exponent is written, and else a
whole number, which may not have too many digits. -/
def scanNumber (negative : Bool) (chars : List Char) : Option (Json × List Char) := do
  let (whole, rest) ← scanWhole chars
  let (places, rest) ← scanPlaces rest
  let (exponent, rest) ← scanExponent rest
  match places, exponent with
  | none, none =>
      if mostDigits < whole.length then none
      else
        let value : Int := Decimal.valueOfDigits whole
        return (.int (if negative then -value else value), rest)
  | _, _ =>
      let places := places.getD []
      let decimal : Decimal :=
        ⟨negative, Decimal.valueOfDigits (whole ++ places), exponent.getD 0 - places.length⟩
      return (.float decimal.toBinary64, rest)

/-- The space characters between words. -/
def isSpace (c : Char) : Bool := c == ' ' || c == '\t' || c == '\n' || c == '\r'

/-- The word at the front of a text that does not begin with a space. -/
def scan? : List Char → Option (Token × List Char)
  | '[' :: rest => some (.openArray, rest)
  | ']' :: rest => some (.closeArray, rest)
  | '\x7b' :: rest => some (.openObject, rest)
  | '\x7d' :: rest => some (.closeObject, rest)
  | ',' :: rest => some (.comma, rest)
  | ':' :: rest => some (.colon, rest)
  | '"' :: rest => (scanText [] rest).map fun (chars, rest) => (.text (String.ofList chars), rest)
  | 'n' :: 'u' :: 'l' :: 'l' :: rest => some (.scalar .null, rest)
  | 't' :: 'r' :: 'u' :: 'e' :: rest => some (.scalar (.bool true), rest)
  | 'f' :: 'a' :: 'l' :: 's' :: 'e' :: rest => some (.scalar (.bool false), rest)
  | 'N' :: 'a' :: 'N' :: rest => some (.scalar (.float .nan), rest)
  | 'I' :: 'n' :: 'f' :: 'i' :: 'n' :: 'i' :: 't' :: 'y' :: rest =>
      some (.scalar (.float (.infinity false)), rest)
  | '-' :: 'I' :: 'n' :: 'f' :: 'i' :: 'n' :: 'i' :: 't' :: 'y' :: rest =>
      some (.scalar (.float (.infinity true)), rest)
  | '-' :: rest => (scanNumber true rest).map fun (value, rest) => (.scalar value, rest)
  | chars => (scanNumber false chars).map fun (value, rest) => (.scalar value, rest)

/-- The words of a text, of which there are at most `bound`, after the words already read, last
first. -/
def scanUpTo (before : List Token) : Nat → List Char → Option (List Token)
  | bound, chars =>
      match bound, chars.dropWhile isSpace with
      | _, [] => some before.reverse
      | 0, _ => none
      | bound + 1, chars =>
          match scan? chars with
          | none => none
          | some (token, rest) => scanUpTo (token :: before) bound rest

/-- The words of a text; none if some part of it is no word. -/
def scanAll (text : String) : Option (List Token) :=
  let chars := text.toList
  scanUpTo [] chars.length chars

end Token

end SceneLayout.Json
