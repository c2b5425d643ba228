import SceneLayout.Json.Reader
import SceneLayout.Proofs.ShownValues

/-!
# Values of texts

No text has a whole number of too many digits, so every value that is read from a text can be
shown: the words of a text have such values only, and reading word by word puts them together
and adds none of its own.

Main statement: `shown_of_read?`.
-/

namespace SceneLayout

/-! ## Digits -/

namespace Decimal

/-- A number is less than the power of ten with as many zeros as it has digits. -/
theorem valueOfDigits_lt {digits : List Char} (all : ∀ c ∈ digits, c.isDigit = true) :
    valueOfDigits digits < 10 ^ digits.length := by
  have after : ∀ (digits : List Char) (before : Nat), (∀ c ∈ digits, c.isDigit = true) →
      digits.foldl (fun value c => 10 * value + (c.toNat - '0'.toNat)) before <
        (before + 1) * 10 ^ digits.length := by
    intro digits
    induction digits with
    | nil =>
        intro before _
        simp
    | cons c rest ih =>
        intro before all
        obtain ⟨first, later⟩ := List.forall_mem_cons.mp all
        have single : c.toNat - '0'.toNat ≤ 9 := by
          have top := (Char.isDigit_iff_toNat.mp first).2
          have zero : '0'.toNat = 48 := rfl
          have nine : '9'.toNat = 57 := rfl
          omega
        calc rest.foldl (fun value c => 10 * value + (c.toNat - '0'.toNat))
              (10 * before + (c.toNat - '0'.toNat))
            < (10 * before + (c.toNat - '0'.toNat) + 1) * 10 ^ rest.length := ih _ later
          _ ≤ ((before + 1) * 10) * 10 ^ rest.length := Nat.mul_le_mul_right _ (by omega)
          _ = (before + 1) * 10 ^ (c :: rest).length := by
              rw [List.length_cons, Nat.pow_succ', Nat.mul_assoc]
  have bound := after digits 0 all
  rwa [Nat.zero_add, Nat.one_mul] at bound

end Decimal

namespace Json

/-! ## Words -/

namespace Token

/-- The value of the word can be shown. -/
def Shown : Token → Prop
  | scalar value => value.Shown
  | _ => True

variable {chars rest : List Char}

theorem isDigit_of_scanDigits {digits : List Char} (read : scanDigits chars = some (digits, rest)) :
    ∀ c ∈ digits, c.isDigit = true := by
  unfold scanDigits at read
  rw [List.span_eq_takeWhile_dropWhile] at read
  split at read
  · cases read
  · cases read
    exact List.all_eq_true.mp List.all_takeWhile

theorem isDigit_of_scanWhole {digits : List Char} (read : scanWhole chars = some (digits, rest)) :
    ∀ c ∈ digits, c.isDigit = true := by
  unfold scanWhole at read
  split at read
  · cases read
    exact List.forall_mem_singleton.mpr rfl
  · exact isDigit_of_scanDigits read

/-- A whole number that is read has few enough digits to be shown. -/
theorem shown_of_scanNumber {negative : Bool} {value : Json}
    (read : scanNumber negative chars = some (value, rest)) : value.Shown := by
  unfold scanNumber at read
  obtain ⟨⟨whole, afterWhole⟩, scanned, read⟩ := Option.bind_eq_some_iff.mp read
  obtain ⟨⟨places, afterPlaces⟩, -, read⟩ := Option.bind_eq_some_iff.mp read
  obtain ⟨⟨exponent, afterExponent⟩, -, read⟩ := Option.bind_eq_some_iff.mp read
  have digits := isDigit_of_scanWhole scanned
  dsimp only at read
  split at read
  · split at read
    · cases read
    · next few =>
        cases read
        have same : (if negative = true then -(Decimal.valueOfDigits whole : Int)
            else Decimal.valueOfDigits whole).natAbs = Decimal.valueOfDigits whole := by
          split
          · exact (Int.natAbs_neg _).trans (Int.natAbs_natCast _)
          · exact Int.natAbs_natCast _
        rw [shown_int_iff, same]
        exact (Decimal.valueOfDigits_lt digits).trans_le
          (Nat.pow_le_pow_right (by decide) (Nat.not_lt.mp few))
  · cases read
    exact ⟨_, by rw [display?]⟩

theorem shown_of_scan? {token : Token} (read : scan? chars = some (token, rest)) :
    token.Shown := by
  unfold scan? at read
  split at read
  case h_1 | h_2 | h_3 | h_4 | h_5 | h_6 =>
    cases read
    trivial
  case h_7 =>
    obtain ⟨_, -, same⟩ := Option.map_eq_some_iff.mp read
    cases same
    trivial
  case h_8 | h_9 | h_10 | h_11 | h_12 | h_13 =>
    cases read
    exact ⟨_, by rw [display?]⟩
  case h_14 | h_15 =>
    obtain ⟨⟨value, after⟩, scanned, same⟩ := Option.map_eq_some_iff.mp read
    cases same
    exact shown_of_scanNumber scanned

theorem shown_of_scanUpTo {bound : Nat} {before tokens : List Token}
    (shown : ∀ token ∈ before, token.Shown)
    (read : scanUpTo before bound chars = some tokens) : ∀ token ∈ tokens, token.Shown := by
  fun_induction scanUpTo before bound chars with
  | case1 before bound chars ended =>
      cases read
      exact fun token member => shown token (List.mem_reverse.mp member)
  | case2 => cases read
  | case3 => cases read
  | case4 before chars bound word token after scanned later =>
      exact later (List.forall_mem_cons.mpr ⟨shown_of_scan? scanned, shown⟩) read

end Token

/-! ## Reading word by word -/

/-- All values before the one that is being read can be shown. -/
def Frame.Shown : Frame → Prop
  | array before => ∀ value ∈ before, value.Shown
  | object before _ => ∀ entry ∈ before, entry.2.Shown

/-- All values in hand can be shown. -/
def Expectation.Shown : Expectation → Prop
  | value => True
  | item before _ => ∀ earlier ∈ before, earlier.Shown
  | key before _ => ∀ entry ∈ before, entry.2.Shown
  | colon before _ => ∀ entry ∈ before, entry.2.Shown
  | next found => found.Shown

/-- All values that have been read can be shown. -/
structure Reading.Shown (reading : Reading) : Prop where
  frames : ∀ frame ∈ reading.frames, frame.Shown
  expectation : reading.expectation.Shown

theorem shown_insert {key : String} {value : Json} {before : Entries Json}
    (shown : value.Shown) (earlier : ∀ entry ∈ before, entry.2.Shown) :
    ∀ entry ∈ Entries.insert key value before, entry.2.Shown := by
  intro entry member
  rcases Entries.eq_or_mem_of_mem_insert member with rfl | member
  · exact shown
  · exact earlier entry member

namespace Reading

variable {reading next : Reading} {frames : List Frame} {token : Token} {value : Json}

theorem shown_beginValue (shown : ∀ frame ∈ frames, frame.Shown) (tokenShown : token.Shown)
    (begun : beginValue frames token = some next) : next.Shown := by
  cases token with
  | openArray | openObject =>
      cases begun
      exact ⟨shown, List.forall_mem_nil _⟩
  | text value =>
      cases begun
      exact ⟨shown, shown_string value⟩
  | scalar value =>
      cases begun
      exact ⟨shown, tokenShown⟩
  | _ => cases begun

theorem shown_continueAfter (shown : ∀ frame ∈ frames, frame.Shown) (valueShown : value.Shown)
    (continued : continueAfter value frames token = some next) : next.Shown := by
  unfold continueAfter at continued
  split at continued
  case h_1 =>
    cases continued
    obtain ⟨first, later⟩ := List.forall_mem_cons.mp shown
    exact ⟨later, List.forall_mem_cons.mpr ⟨valueShown, first⟩⟩
  case h_2 =>
    cases continued
    obtain ⟨first, later⟩ := List.forall_mem_cons.mp shown
    refine ⟨later, shown_array_iff.mpr fun item member => ?_⟩
    exact List.forall_mem_cons.mpr ⟨valueShown, first⟩ item (List.mem_reverse.mp member)
  case h_3 =>
    cases continued
    obtain ⟨first, later⟩ := List.forall_mem_cons.mp shown
    exact ⟨later, shown_insert valueShown first⟩
  case h_4 =>
    cases continued
    obtain ⟨first, later⟩ := List.forall_mem_cons.mp shown
    exact ⟨later, shown_object_iff.mpr (shown_insert valueShown first)⟩
  case h_5 => cases continued

/-- A word that can be shown keeps what has been read so. -/
theorem Shown.step (shown : reading.Shown) (tokenShown : token.Shown)
    (read : reading.step token = some next) : next.Shown := by
  obtain ⟨frames, expectation⟩ := reading
  obtain ⟨framesShown, inHand⟩ := shown
  unfold Reading.step at read
  dsimp only at read framesShown inHand
  split at read
  case h_1 => exact shown_beginValue framesShown tokenShown read
  case h_2 =>
    cases read
    exact ⟨framesShown, shown_array_iff.mpr (List.forall_mem_nil _)⟩
  case h_3 =>
    refine shown_beginValue (List.forall_mem_cons.mpr ⟨?_, framesShown⟩) tokenShown read
    exact inHand
  case h_4 =>
    cases read
    exact ⟨framesShown, shown_object_iff.mpr (List.forall_mem_nil _)⟩
  case h_5 =>
    cases read
    exact ⟨framesShown, inHand⟩
  case h_6 =>
    cases read
    exact ⟨List.forall_mem_cons.mpr ⟨inHand, framesShown⟩, trivial⟩
  case h_7 => exact shown_continueAfter framesShown inHand read
  case h_8 => cases read

theorem Shown.foldlM {tokens : List Token} (shown : reading.Shown)
    (tokensShown : ∀ token ∈ tokens, token.Shown)
    (read : tokens.foldlM Reading.step reading = some next) : next.Shown := by
  induction tokens generalizing reading with
  | nil =>
      cases read
      exact shown
  | cons token rest ih =>
      obtain ⟨first, later⟩ := List.forall_mem_cons.mp tokensShown
      rw [List.foldlM_cons] at read
      obtain ⟨middle, stepped, read⟩ := Option.bind_eq_some_iff.mp read
      exact ih (shown.step first stepped) later read

end Reading

/-- Whatever is read from a text can be shown. -/
theorem shown_of_read? {text : String} {value : Json} (read : read? text = some value) :
    value.Shown := by
  obtain ⟨tokens, scanned, read⟩ := Option.bind_eq_some_iff.mp read
  obtain ⟨last, run, result⟩ := Option.bind_eq_some_iff.mp read
  have tokensShown : ∀ token ∈ tokens, token.Shown :=
    Token.shown_of_scanUpTo (List.forall_mem_nil _) scanned
  have start : Reading.start.Shown := ⟨List.forall_mem_nil _, trivial⟩
  have shown := start.foldlM tokensShown run
  obtain ⟨frames, expectation⟩ := last
  cases frames with
  | nil =>
      cases expectation with
      | next found =>
          cases result
          exact shown.expectation
      | _ => cases result
  | cons frame rest => cases result

end Json

end SceneLayout
