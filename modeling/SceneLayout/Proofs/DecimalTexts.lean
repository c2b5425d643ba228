import Mathlib.Data.List.TakeWhile
import Mathlib.Tactic.IntervalCases
import SceneLayout.Number.Numeral
import SceneLayout.Number.Written
import SceneLayout.Proofs.DecimalRounding

/-!
# Written decimals are read back

A text is read as an exact decimal by the scanners that read typed numbers: a sign, digits, places
behind a point, and an exponent. A decimal is written around the point or with an exponent, and in
each layout the scanners find the digits and the exponent again. The zeros that pad a layout
change the digits that are found but not their value.

Main statements: `shows_written`, `shows_wholeText`, `double?_eq`.
-/

namespace SceneLayout

open Numeral (takeSign takeDigits takeMoreDigits takePlaces exponent?)

namespace Decimal

/-- The exact decimal that a text without its sign shows. -/
def ofChars? (negative : Bool) (chars : List Char) : Option Decimal :=
  let (whole, rest) := takeDigits chars
  let (places, rest) := takePlaces rest
  if whole.isEmpty ∧ places.isEmpty then none
  else
    (exponent? rest).map fun exponent =>
      ⟨negative, valueOfDigits (whole ++ places), exponent - places.length⟩

/-- The exact decimal that a text shows. -/
def ofText? (text : String) : Option Decimal :=
  let (negative, rest) := takeSign text.toList
  ofChars? negative rest

/-! ## Scanning digits -/

/-- Nothing that continues a number of digits. -/
def Stops (rest : List Char) : Prop := ∀ c ∈ rest.head?, c.isDigit = false ∧ c ≠ '_'

theorem stops_nil : Stops [] := by
  intro c member
  cases member

theorem stops_cons {c : Char} {rest : List Char} (digit : c.isDigit = false) (other : c ≠ '_') :
    Stops (c :: rest) := by
  rintro _ ⟨⟩
  exact ⟨digit, other⟩

theorem takeMoreDigits_cons {c : Char} (other : c ≠ '_') (rest : List Char) :
    takeMoreDigits (c :: rest) =
      if c.isDigit then (c :: (takeMoreDigits rest).1, (takeMoreDigits rest).2)
      else ([], c :: rest) := by
  rw [takeMoreDigits]
  · exact other

theorem takeMoreDigits_append {digits rest : List Char} (all : ∀ c ∈ digits, c.isDigit = true)
    (stops : Stops rest) : takeMoreDigits (digits ++ rest) = (digits, rest) := by
  induction digits with
  | nil =>
      cases rest with
      | nil => rfl
      | cons c rest =>
          obtain ⟨digit, other⟩ := stops c rfl
          rw [List.nil_append, takeMoreDigits_cons other, if_neg (by simp [digit])]
  | cons c digits ih =>
      have digit := all c List.mem_cons_self
      have other : c ≠ '_' := by
        rintro rfl
        cases digit
      rw [List.cons_append, takeMoreDigits_cons other, if_pos digit,
        ih fun c member => all c (List.mem_cons_of_mem _ member)]

theorem takeDigits_append {digits rest : List Char} (all : ∀ c ∈ digits, c.isDigit = true)
    (stops : Stops rest) : takeDigits (digits ++ rest) = (digits, rest) := by
  cases digits with
  | nil =>
      cases rest with
      | nil => rfl
      | cons c rest => rw [List.nil_append, takeDigits, if_neg (by simp [(stops c rfl).1])]
  | cons c digits =>
      rw [List.cons_append, takeDigits, if_pos (all c List.mem_cons_self),
        takeMoreDigits_append (fun c member => all c (List.mem_cons_of_mem _ member)) stops]

theorem valueOfDigits_eq (digits : List Char) :
    valueOfDigits digits = Nat.ofDigitChars 10 digits 0 := rfl

theorem isDigit_digitChars {n : ℕ} : ∀ c ∈ digitChars n, c.isDigit = true := fun _ member =>
  Nat.isDigit_of_mem_toDigits (by decide) (by decide) member

theorem isDigit_zeros {n : ℕ} : ∀ c ∈ List.replicate n '0', c.isDigit = true := by
  intro c member
  rw [List.eq_of_mem_replicate member]
  rfl

@[simp] theorem valueOfDigits_digitChars (n : ℕ) : valueOfDigits (digitChars n) = n :=
  Nat.ofDigitChars_ten_toDigits

/-- Zeros before digits do not count. -/
@[simp] theorem valueOfDigits_zeros_append (count : ℕ) (digits : List Char) :
    valueOfDigits (List.replicate count '0' ++ digits) = valueOfDigits digits := by
  rw [valueOfDigits_eq, Nat.ofDigitChars_append, Nat.ofDigitChars_replicate_zero, Nat.mul_zero]
  rfl

/-- A zero behind digits counts for a power of ten. -/
theorem valueOfDigits_append_zeros (digits : List Char) (count : ℕ) :
    valueOfDigits (digits ++ List.replicate count '0') = valueOfDigits digits * 10 ^ count := by
  rw [valueOfDigits_eq, Nat.ofDigitChars_append, Nat.ofDigitChars_replicate_zero, mul_comm]
  rfl

/-! ## Scanning a number -/

/-- What ends a number of digits: nothing, or an exponent. -/
structure EndsIn (rest : List Char) (exponent : ℤ) : Prop where
  stops : Stops rest
  noPoint : rest.head? ≠ some '.'
  read : exponent? rest = some exponent

theorem endsIn_nil : EndsIn [] 0 := ⟨stops_nil, by decide, rfl⟩

/-- A written exponent is read back. -/
theorem endsIn_exponentChars (exponent : ℤ) : EndsIn ('e' :: exponentChars exponent) exponent := by
  refine ⟨stops_cons rfl (by decide), by simp, ?_⟩
  set digits := List.replicate (2 - (digitChars exponent.natAbs).length) '0' ++
    digitChars exponent.natAbs with digitsEq
  have all : ∀ c ∈ digits, c.isDigit = true :=
    List.forall_mem_append.mpr ⟨isDigit_zeros, isDigit_digitChars⟩
  have present : digits ≠ [] := List.append_ne_nil_of_right_ne_nil _ Nat.toDigits_ne_nil
  have value : valueOfDigits digits = exponent.natAbs := by
    rw [digitsEq, valueOfDigits_zeros_append, valueOfDigits_digitChars]
  have scanned : takeDigits digits = (digits, []) := by
    simpa only [List.append_nil] using takeDigits_append all stops_nil
  have sign : takeSign (exponentChars exponent) = (decide (exponent < 0), digits) := by
    unfold exponentChars
    split_ifs with negative
    · rw [decide_eq_true negative]
      rfl
    · rw [decide_eq_false negative]
      rfl
  rw [exponent?, if_pos (.inl rfl), sign]
  dsimp only
  rw [scanned]
  obtain ⟨c, more, shape⟩ := List.exists_cons_of_ne_nil present
  rw [shape] at value ⊢
  dsimp only
  simp only [value, decide_eq_true_eq]
  split_ifs <;> congr 1 <;> omega

theorem ofChars?_whole (negative : Bool) {whole rest : List Char} {exponent : ℤ}
    (all : ∀ c ∈ whole, c.isDigit = true) (present : whole ≠ []) (ends : EndsIn rest exponent) :
    ofChars? negative (whole ++ rest) = some ⟨negative, valueOfDigits whole, exponent⟩ := by
  have places : takePlaces rest = ([], rest) := by
    unfold takePlaces
    split
    · exact absurd rfl ends.noPoint
    · rfl
  unfold ofChars?
  rw [takeDigits_append all ends.stops]
  dsimp only
  rw [places]
  dsimp only
  rw [if_neg (by simp [present]), ends.read]
  simp

theorem ofChars?_places (negative : Bool) {whole places rest : List Char} {exponent : ℤ}
    (all : ∀ c ∈ whole, c.isDigit = true) (present : whole ≠ [])
    (also : ∀ c ∈ places, c.isDigit = true) (ends : EndsIn rest exponent) :
    ofChars? negative (whole ++ '.' :: (places ++ rest)) =
      some ⟨negative, valueOfDigits (whole ++ places), exponent - places.length⟩ := by
  unfold ofChars?
  rw [takeDigits_append all (stops_cons rfl (by decide))]
  dsimp only
  rw [takePlaces, takeDigits_append also ends.stops]
  dsimp only
  rw [if_neg (by simp [present]), ends.read]
  rfl

/-! ## Reading what is written -/

/-- A number below one is written with zeros between the point and its digits. -/
theorem ofChars?_positional_neg {d : Decimal} {digits : List Char}
    (all : ∀ c ∈ digits, c.isDigit = true) (value : valueOfDigits digits = d.digits)
    (below : d.exponent + digits.length - 1 < 0) :
    ofChars? d.negative (positional .full digits (d.exponent + digits.length - 1)) = some d := by
  set zeros := List.replicate (-(d.exponent + digits.length - 1) - 1).toNat '0'
  have places : ∀ c ∈ zeros ++ digits, c.isDigit = true :=
    List.forall_mem_append.mpr ⟨isDigit_zeros, all⟩
  have front : ∀ c ∈ ['0'], c.isDigit = true := List.forall_mem_singleton.mpr rfl
  have read := ofChars?_places d.negative front (List.cons_ne_nil _ _) places endsIn_nil
  have size : zeros.length = (-(d.exponent + digits.length - 1) - 1).toNat := List.length_replicate
  rw [List.append_nil] at read
  rw [positional, if_pos below]
  refine read.trans (congrArg some ?_)
  have found : valueOfDigits (['0'] ++ (zeros ++ digits)) = d.digits :=
    (valueOfDigits_zeros_append 1 _).trans ((valueOfDigits_zeros_append _ digits).trans value)
  have exponent : 0 - ((zeros ++ digits).length : ℤ) = d.exponent := by
    rw [List.length_append, size]
    omega
  rw [found, exponent]

/-- A whole number is written with zeros after its digits, and a place for the mark. -/
theorem ofChars?_positional_whole {d : Decimal} {digits : List Char}
    (all : ∀ c ∈ digits, c.isDigit = true) (value : valueOfDigits digits = d.digits)
    (present : digits ≠ []) (whole : 0 ≤ d.exponent) :
    ∃ read, ofChars? d.negative (positional .full digits (d.exponent + digits.length - 1)) =
      some read ∧ read.SameNumber d := by
  have length : 0 < digits.length := List.length_pos_iff.mpr present
  obtain ⟨count, more⟩ := Int.eq_ofNat_of_zero_le whole
  have size : (d.exponent + digits.length - 1).toNat + 1 = digits.length + count := by omega
  have text : positional .full digits (d.exponent + digits.length - 1) =
      (digits ++ List.replicate count '0') ++ '.' :: (['0'] ++ []) := by
    rw [positional, if_neg (by omega)]
    dsimp only
    rw [size, List.take_of_length_le (Nat.le_add_right ..),
      List.drop_of_length_le (Nat.le_add_right ..), Nat.add_sub_cancel_left]
    rfl
  have padded : ∀ c ∈ digits ++ List.replicate count '0', c.isDigit = true :=
    List.forall_mem_append.mpr ⟨all, isDigit_zeros⟩
  rw [text, ofChars?_places d.negative padded (List.append_ne_nil_of_left_ne_nil present _)
    (List.forall_mem_singleton.mpr rfl) endsIn_nil]
  refine ⟨_, rfl, rfl, ?_⟩
  have found : valueOfDigits (digits ++ List.replicate count '0' ++ ['0']) =
      d.digits * 10 ^ count * 10 ^ 1 := by
    rw [← value, ← valueOfDigits_append_zeros digits, ← valueOfDigits_append_zeros]
    rfl
  have tenth : (10 : ℚ) ^ 1 * 10 ^ (0 - (List.length ['0'] : ℤ)) = 1 := by norm_num
  rw [magnitude, magnitude, found, more, Nat.cast_mul, Nat.cast_mul, mul_assoc, Nat.cast_pow,
    Nat.cast_pow, Nat.cast_ofNat, tenth, mul_one]
  rfl

/-- The digits of another number are split at the point. -/
theorem ofChars?_positional_split {d : Decimal} {digits : List Char}
    (all : ∀ c ∈ digits, c.isDigit = true) (value : valueOfDigits digits = d.digits)
    (above : 0 ≤ d.exponent + digits.length - 1) (fraction : d.exponent < 0) :
    ofChars? d.negative (positional .full digits (d.exponent + digits.length - 1)) = some d := by
  set count := (d.exponent + digits.length - 1).toNat + 1 with countEq
  have short : count < digits.length := by omega
  have text : positional .full digits (d.exponent + digits.length - 1) =
      digits.take count ++ '.' :: (digits.drop count ++ []) := by
    rw [positional, if_neg above.not_gt]
    dsimp only
    rw [← countEq, Nat.sub_eq_zero_of_le short.le, List.replicate_zero, List.append_nil]
    split
    · next none =>
        have := List.length_drop (l := digits) (i := count)
        rw [none, List.length_nil] at this
        omega
    · rw [List.append_nil]
  have parts := List.take_append_drop count digits
  rw [← parts] at all
  obtain ⟨before, after⟩ := List.forall_mem_append.mp all
  have present : digits.take count ≠ [] := by
    rw [← List.length_pos_iff, List.length_take]
    omega
  rw [text, ofChars?_places d.negative before present after endsIn_nil, parts, value]
  have exponent : 0 - ((digits.drop count).length : ℤ) = d.exponent := by
    rw [List.length_drop]
    omega
  rw [exponent]

/-- The layout around the point has the digits of the decimal, apart from zeros. -/
theorem ofChars?_positional (d : Decimal) :
    ∃ read, ofChars? d.negative (positional .full (digitChars d.digits)
        (d.exponent + (digitChars d.digits).length - 1)) = some read ∧ read.SameNumber d := by
  have value : valueOfDigits (digitChars d.digits) = d.digits := valueOfDigits_digitChars d.digits
  by_cases below : d.exponent + (digitChars d.digits).length - 1 < 0
  · exact ⟨d, ofChars?_positional_neg isDigit_digitChars value below, rfl, rfl⟩
  by_cases whole : 0 ≤ d.exponent
  · exact ofChars?_positional_whole isDigit_digitChars value Nat.toDigits_ne_nil whole
  · have read := ofChars?_positional_split isDigit_digitChars value (not_lt.mp below)
      (not_le.mp whole)
    exact ⟨d, read, rfl, rfl⟩

/-- One digit before the point is scaled by the exponent that is written. -/
theorem ofChars?_scientific (d : Decimal) :
    ofChars? d.negative (scientific (digitChars d.digits)
      (d.exponent + (digitChars d.digits).length - 1)) = some d := by
  have all : ∀ c ∈ digitChars d.digits, c.isDigit = true := isDigit_digitChars
  have value : valueOfDigits (digitChars d.digits) = d.digits := valueOfDigits_digitChars d.digits
  have ends := endsIn_exponentChars (d.exponent + (digitChars d.digits).length - 1)
  have present : digitChars d.digits ≠ [] := Nat.toDigits_ne_nil
  generalize digitChars d.digits = digits at all value ends present ⊢
  rcases digits with _ | ⟨first, _ | ⟨second, rest⟩⟩
  · exact absurd rfl present
  · refine (ofChars?_whole d.negative all present ends).trans (congrArg some ?_)
    rw [value, List.length_singleton, Nat.cast_one, add_sub_cancel_right]
  · have front : ∀ c ∈ [first], c.isDigit = true :=
      List.forall_mem_singleton.mpr (all first List.mem_cons_self)
    have places : ∀ c ∈ second :: rest, c.isDigit = true := fun c member =>
      all c (List.mem_cons_of_mem _ member)
    have read := ofChars?_places d.negative front (List.cons_ne_nil _ _) places ends
    refine read.trans (congrArg some ?_)
    rw [List.singleton_append, value, List.length_cons]
    congr 1
    omega

/-- What has a digit in front has no sign. -/
theorem takeSign_of_ofChars? {negative : Bool} {chars : List Char} {read : Decimal}
    (h : ofChars? negative chars = some read) : takeSign chars = (false, chars) := by
  unfold takeSign
  split
  · cases h
  · cases h
  · rfl

theorem ofText?_of_ofChars? {negative : Bool} {chars : List Char} {read : Decimal}
    (h : ofChars? negative chars = some read) :
    ofText? (String.ofList (if negative then '-' :: chars else chars)) = some read := by
  unfold ofText?
  rw [String.toList_ofList]
  cases negative
  · rw [if_neg Bool.false_ne_true, takeSign_of_ofChars? h]
    exact h
  · exact h

/-! ## The reader of typed numbers -/

/-- The characters of written decimals. -/
def numberChars : List Char :=
  ['+', '-', '.', 'e', '0', '1', '2', '3', '4', '5', '6', '7', '8', '9']

theorem mem_numberChars_of_isDigit {c : Char} (digit : c.isDigit = true) : c ∈ numberChars := by
  have bounds : 48 ≤ c.toNat ∧ c.toNat ≤ 57 := by
    rw [Char.isDigit, Bool.and_eq_true, decide_eq_true_eq, decide_eq_true_eq] at digit
    exact digit
  obtain ⟨lower, upper⟩ := bounds
  rw [← Char.ofNat_toNat c]
  interval_cases c.toNat <;> decide

theorem dropWhile_isBlank {chars : List Char} (all : ∀ c ∈ chars, c ∈ numberChars) :
    chars.dropWhile isBlank = chars := by
  have blank : numberChars.all (fun c => !isBlank c) = true := by decide
  refine List.dropWhile_eq_self_iff.mpr fun present => ?_
  have first := List.all_eq_true.mp blank _ (all _ (List.getElem_mem present))
  simpa using first

/-- Nothing in a written decimal is blank or a digit of another script. -/
theorem plain_of_numberChars {text : String} (all : ∀ c ∈ text.toList, c ∈ numberChars) :
    Numeral.plain text = text.toList := by
  have same : numberChars.all (fun c =>
      (decimalDigit? c).all fun digit => Char.ofNat ('0'.toNat + digit) == c) = true := by decide
  have trimmed : trimBlank text.toList = text.toList := by
    rw [trimBlank, dropWhile_isBlank all,
      dropWhile_isBlank fun c member => all c (List.mem_reverse.mp member), List.reverse_reverse]
  rw [Numeral.plain, trimmed]
  conv_rhs => rw [← List.map_id text.toList]
  refine List.map_congr_left fun c member => ?_
  have kept := List.all_eq_true.mp same c (all c member)
  cases found : decimalDigit? c with
  | none => rfl
  | some digit =>
      rw [found] at kept
      exact eq_of_beq kept

theorem lower_ne_of_numberChars {chars : List Char} (all : ∀ c ∈ chars, c ∈ numberChars)
    {name : String} (letter : 'n' ∈ name.toList) :
    String.ofList (chars.map Char.toLower) ≠ name := by
  have none : numberChars.all (fun c => c.toLower != 'n') = true := by decide
  rintro rfl
  rw [String.toList_ofList, List.mem_map] at letter
  obtain ⟨c, member, lower⟩ := letter
  exact bne_iff_ne.mp (List.all_eq_true.mp none c (all c member)) lower

theorem subset_takeSign (chars : List Char) : (takeSign chars).2 ⊆ chars := by
  unfold takeSign
  split
  · exact List.subset_cons_self _ _
  · exact List.subset_cons_self _ _
  · exact List.Subset.refl _

/-- The reader of typed numbers gives the double nearest to the decimal that a text shows. -/
theorem double?_eq {text : String} (all : ∀ c ∈ text.toList, c ∈ numberChars) :
    Numeral.double? text = (ofText? text).map toBinary64 := by
  have rest : ∀ c ∈ (takeSign text.toList).2, c ∈ numberChars := fun c member =>
    all c (subset_takeSign _ member)
  unfold Numeral.double? ofText?
  rw [plain_of_numberChars all]
  dsimp only
  unfold Numeral.unsigned? ofChars?
  dsimp only
  rw [if_neg (lower_ne_of_numberChars rest (by decide)),
    if_neg (not_or.mpr ⟨lower_ne_of_numberChars rest (by decide),
      lower_ne_of_numberChars rest (by decide)⟩)]
  split_ifs
  · rfl
  · rw [Option.map_map]
    rfl

theorem mem_numberChars_digitChars {n : ℕ} : ∀ c ∈ digitChars n, c ∈ numberChars := fun c member =>
  mem_numberChars_of_isDigit (isDigit_digitChars c member)

theorem mem_numberChars_zeros {n : ℕ} : ∀ c ∈ List.replicate n '0', c ∈ numberChars :=
  fun c member => mem_numberChars_of_isDigit (isDigit_zeros c member)

theorem mem_numberChars_positional {digits : List Char} (all : ∀ c ∈ digits, c ∈ numberChars)
    (lead : ℤ) : ∀ c ∈ positional .full digits lead, c ∈ numberChars := by
  have zero : '0' ∈ numberChars := by decide
  have point : '.' ∈ numberChars := by decide
  unfold positional
  split
  · exact List.forall_mem_cons.mpr ⟨zero, List.forall_mem_cons.mpr ⟨point,
      List.forall_mem_append.mpr ⟨mem_numberChars_zeros, all⟩⟩⟩
  · have whole : ∀ c ∈ digits.take (lead.toNat + 1) ++
        List.replicate (lead.toNat + 1 - digits.length) '0', c ∈ numberChars :=
      List.forall_mem_append.mpr
        ⟨fun c member => all c (List.mem_of_mem_take member), mem_numberChars_zeros⟩
    dsimp only
    split
    · exact List.forall_mem_append.mpr ⟨whole, List.forall_mem_cons.mpr
        ⟨point, List.forall_mem_singleton.mpr zero⟩⟩
    · exact List.forall_mem_append.mpr ⟨whole, List.forall_mem_cons.mpr
        ⟨point, fun c member => all c (List.mem_of_mem_drop member)⟩⟩

theorem mem_numberChars_scientific {digits : List Char} (all : ∀ c ∈ digits, c ∈ numberChars)
    (lead : ℤ) : ∀ c ∈ scientific digits lead, c ∈ numberChars := by
  have sign : (if lead < 0 then '-' else '+') ∈ numberChars := by
    split_ifs <;> decide
  have mark : ∀ c ∈ 'e' :: exponentChars lead, c ∈ numberChars :=
    List.forall_mem_cons.mpr ⟨by decide, List.forall_mem_cons.mpr ⟨sign,
      List.forall_mem_append.mpr ⟨mem_numberChars_zeros, mem_numberChars_digitChars⟩⟩⟩
  unfold scientific
  dsimp only
  split
  · obtain ⟨first, others⟩ := List.forall_mem_cons.mp all
    exact List.forall_mem_cons.mpr ⟨first, List.forall_mem_cons.mpr
      ⟨by decide, List.forall_mem_append.mpr ⟨others, mark⟩⟩⟩
  · exact List.forall_mem_append.mpr ⟨all, mark⟩

theorem mem_numberChars_signed {negative : Bool} {chars : List Char}
    (all : ∀ c ∈ chars, c ∈ numberChars) :
    ∀ c ∈ (String.ofList (if negative then '-' :: chars else chars)).toList, c ∈ numberChars := by
  rw [String.toList_ofList]
  split_ifs
  · exact List.forall_mem_cons.mpr ⟨by decide, all⟩
  · exact all

theorem mem_numberChars_written (d : Decimal) :
    ∀ c ∈ (d.written .full).toList, c ∈ numberChars := by
  apply mem_numberChars_signed
  split
  · exact mem_numberChars_positional mem_numberChars_digitChars _
  · exact mem_numberChars_scientific mem_numberChars_digitChars _

/-- The text is made of the characters of numbers and is read as the decimal. -/
structure Shows (text : String) (d : Decimal) : Prop where
  read : ofText? text = some d
  chars : ∀ c ∈ text.toList, c ∈ numberChars

/-- What shows a decimal is typed for the double that is nearest to it. -/
theorem Shows.double?_eq {text : String} {d : Decimal} (h : Shows text d) :
    Numeral.double? text = some d.toBinary64 := by
  rw [Decimal.double?_eq h.chars, h.read]
  rfl

theorem shows_zero : Shows "0" ⟨false, 0, 0⟩ :=
  ⟨rfl, List.forall_mem_singleton.mpr (mem_numberChars_of_isDigit rfl)⟩

/-- A written decimal is read back with its sign and its value. -/
theorem shows_written (d : Decimal) : ∃ read, Shows (d.written .full) read ∧ read.SameNumber d := by
  have chars := mem_numberChars_written d
  by_cases around :
      DecimalStyle.full.positionalFrom ≤ d.exponent + (digitChars d.digits).length - 1 ∧
      d.exponent + (digitChars d.digits).length - 1 < DecimalStyle.full.positionalBelow
  · obtain ⟨read, found, same⟩ := ofChars?_positional d
    refine ⟨read, ⟨?_, chars⟩, same⟩
    rw [written, if_pos around]
    exact ofText?_of_ofChars? found
  · refine ⟨d, ⟨?_, chars⟩, rfl, rfl⟩
    rw [written, if_neg around]
    exact ofText?_of_ofChars? (ofChars?_scientific d)

/-- The text of a whole number is read back. -/
theorem shows_wholeText (negative : Bool) (m : ℕ) (e : ℤ) :
    Shows (Binary64.wholeText negative m e)
      ⟨negative, (Binary64.ratio m e).1 / (Binary64.ratio m e).2, 0⟩ := by
  set n := (Binary64.ratio m e).1 / (Binary64.ratio m e).2 with whole
  have text : Binary64.wholeText negative m e =
      String.ofList (if negative then '-' :: digitChars n else digitChars n) := by
    rw [Binary64.wholeText, ← whole, Nat.toString_eq_ofList_toDigits, ← String.toList_inj]
    cases negative <;> simp [digitChars]
  have read := ofChars?_whole negative (isDigit_digitChars (n := n)) Nat.toDigits_ne_nil endsIn_nil
  rw [List.append_nil, valueOfDigits_digitChars] at read
  rw [text]
  exact ⟨ofText?_of_ofChars? read, mem_numberChars_signed mem_numberChars_digitChars⟩

end Decimal

end SceneLayout
