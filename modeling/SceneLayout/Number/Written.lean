import SceneLayout.Number.Shortest

/-!
# Written numbers

How decimals are laid out as text. A style says for which exponents the digits
are written around the point and whether a whole number keeps a point; outside
that range the text is scientific, with a signed exponent of at least two digits.
-/

namespace SceneLayout

/-- The choices of a written form. -/
structure DecimalStyle where
  /-- The least exponent of the first digit that is written around the point. -/
  positionalFrom : Int
  /-- The first exponent that is scientific again. -/
  positionalBelow : Int
  /-- Whether a whole number ends in a point and a zero. -/
  wholeMark : Bool

namespace DecimalStyle

/-- All digits of a double: positional from 0.0001 up to below 10 ^ 16, with a point. -/
def full : DecimalStyle := ⟨-4, 16, true⟩

/-- Three significant digits: positional from 0.0001 up to below 1000, without a needless point. -/
def brief : DecimalStyle := ⟨-4, 3, false⟩

end DecimalStyle

namespace Decimal

/-- The decimal digits of a whole number. -/
def digitChars (n : Nat) : List Char := Nat.toDigits 10 n

/-- Digits written around the point; the first one counts `10 ^ lead`. -/
def positional (style : DecimalStyle) (digits : List Char) (lead : Int) : List Char :=
  if lead < 0 then '0' :: '.' :: List.replicate (-lead - 1).toNat '0' ++ digits
  else
    let count := lead.toNat + 1
    let whole := digits.take count ++ List.replicate (count - digits.length) '0'
    match digits.drop count with
    | [] => if style.wholeMark then whole ++ ['.', '0'] else whole
    | places => whole ++ '.' :: places

/-- The exponent of a scientific form: a sign and at least two digits. -/
def exponentChars (exponent : Int) : List Char :=
  let digits := digitChars exponent.natAbs
  (if exponent < 0 then '-' else '+') :: List.replicate (2 - digits.length) '0' ++ digits

/-- One digit, the point and the others if there are any, and the exponent. -/
def scientific (digits : List Char) (lead : Int) : List Char :=
  let mark := 'e' :: exponentChars lead
  match digits with
  | first :: second :: rest => first :: '.' :: second :: rest ++ mark
  | short => short ++ mark

/-- The text of a decimal without trailing zeros. -/
def written (style : DecimalStyle) (d : Decimal) : String :=
  let digits := digitChars d.digits
  let lead : Int := d.exponent + digits.length - 1
  let body :=
    if style.positionalFrom ≤ lead ∧ lead < style.positionalBelow then positional style digits lead
    else scientific digits lead
  String.ofList (if d.negative then '-' :: body else body)

end Decimal

namespace Binary64

/-- A double as text: a chosen decimal if it is finite, else its name. -/
def writtenAs (style : DecimalStyle) (decimal : Binary64 → Option Decimal) (x : Binary64) :
    String :=
  match decimal x with
  | some d => d.written style
  | none =>
      match x with
      | infinity negative => if negative then "-inf" else "inf"
      | _ => "nan"

/-- The shortest text that reads back as the double. -/
def written (x : Binary64) : String := x.writtenAs .full shortest

/-- The double with three significant digits. -/
def writtenBriefly (x : Binary64) : String := x.writtenAs .brief (toSignificant 3)

/-- The text of a whole number with all its digits. -/
def wholeText (negative : Bool) (mantissa : Nat) (exponent : Int) : String :=
  let exact := ratio mantissa exponent
  (if negative then "-" else "") ++ toString (exact.1 / exact.2)

/-- The text of a drawn number: nine decimal places at most, zero without a sign, whole numbers
with all their digits and without a point. -/
def drawn (x : Binary64) : String :=
  let rounded := x.roundToPlaces 9
  match rounded with
  | finite negative mantissa exponent =>
      if mantissa = 0 then "0"
      else if rounded.isWhole then wholeText negative mantissa exponent
      else rounded.written
  | _ => rounded.written

end Binary64

end SceneLayout
