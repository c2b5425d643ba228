import SceneLayout.Number.Decimal
import SceneLayout.Text.Blank
import SceneLayout.Text.DecimalDigit

/-!
# Typed numbers

Numbers as a person types them: blanks around them do not count, digits may be of
any script, and single underscores may stand between digits. A number is a whole
number with a sign, or a decimal with a point and an exponent, infinity, or NaN.
-/

namespace SceneLayout.Numeral

/-- A typed text without blanks at its ends and with ASCII digits. -/
def plain (text : String) : List Char :=
  (trimBlank text.toList).map fun c =>
    match decimalDigit? c with
    | some digit => Char.ofNat ('0'.toNat + digit)
    | none => c

/-- The sign in front of a number, and the rest. -/
def takeSign : List Char → Bool × List Char
  | '+' :: rest => (false, rest)
  | '-' :: rest => (true, rest)
  | rest => (false, rest)

mutual

/-- The digits at the front of a text, and the rest. -/
def takeDigits : List Char → List Char × List Char
  | [] => ([], [])
  | c :: rest =>
      if c.isDigit then
        let (digits, rest) := takeMoreDigits rest
        (c :: digits, rest)
      else ([], c :: rest)

/-- The digits after a digit, before each of which an underscore may stand. -/
def takeMoreDigits : List Char → List Char × List Char
  | [] => ([], [])
  | '_' :: rest =>
      match takeDigits rest with
      | ([], _) => ([], '_' :: rest)
      | found => found
  | c :: rest =>
      if c.isDigit then
        let (digits, rest) := takeMoreDigits rest
        (c :: digits, rest)
      else ([], c :: rest)

end

/-- The whole number that a text is typed for. -/
def wholeNumber? (text : String) : Option Int :=
  let (negative, rest) := takeSign (plain text)
  match takeDigits rest with
  | ([], _) => none
  | (digits, []) =>
      let value : Int := Decimal.valueOfDigits digits
      some (if negative then -value else value)
  | _ => none

/-- The digits after a point, if there is a point. -/
def takePlaces : List Char → List Char × List Char
  | '.' :: rest => takeDigits rest
  | rest => ([], rest)

/-- The exponent that ends a text; zero if the text is empty. -/
def exponent? : List Char → Option Int
  | [] => some 0
  | c :: rest =>
      if c = 'e' ∨ c = 'E' then
        let (negative, rest) := takeSign rest
        match takeDigits rest with
        | ([], _) => none
        | (digits, []) =>
            let value : Int := Decimal.valueOfDigits digits
            some (if negative then -value else value)
        | _ => none
      else none

/-- The double that a number without its sign is typed for. -/
def unsigned? (negative : Bool) (chars : List Char) : Option Binary64 :=
  let name := String.ofList (chars.map Char.toLower)
  if name = "nan" then some .nan
  else if name = "inf" ∨ name = "infinity" then some (.infinity negative)
  else
    let (whole, rest) := takeDigits chars
    let (places, rest) := takePlaces rest
    if whole.isEmpty ∧ places.isEmpty then none
    else
      (exponent? rest).map fun exponent =>
        (Decimal.mk negative (Decimal.valueOfDigits (whole ++ places))
          (exponent - places.length)).toBinary64

/-- The double that a text is typed for. -/
def double? (text : String) : Option Binary64 :=
  let (negative, rest) := takeSign (plain text)
  unsigned? negative rest

end SceneLayout.Numeral
