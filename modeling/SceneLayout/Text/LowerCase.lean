import SceneLayout.Text.Casing

/-!
# Lower case

The lower-case form of a text. Two characters do not go one by one: the capital I
with a dot above becomes an i and a combining dot, and a capital sigma at the end
of a word becomes the final sigma.
-/

namespace SceneLayout.LowerCase

/-- Whether the nearest character that is not passed over has case. -/
def caseFollows (chars : List Char) : Bool :=
  match chars.dropWhile caseIgnorableRanges.contains with
  | [] => false
  | c :: _ => casedRanges.contains c

/-- The lower-case form of a character that has one of its own. -/
def ofChar (c : Char) : Char :=
  match lowerRuns.find? fun run =>
      run.first ≤ c.toNat && c.toNat ≤ run.last && (c.toNat - run.first) % run.step == 0 with
  | some run => Char.ofNat (run.form + (c.toNat - run.first))
  | none => c

/-- The lower-case form of a character between the characters before it, nearest first, and those
after it. -/
def ofCharIn (before after : List Char) (c : Char) : List Char :=
  if c.toNat = 0x130 then ['i', Char.ofNat 0x307]
  else if c.toNat = 0x3A3 then
    [Char.ofNat (if caseFollows before && !caseFollows after then 0x3C2 else 0x3C3)]
  else [ofChar c]

/-- The lower-case form of the rest of a text, given the characters before it, nearest first. -/
def ofChars (before : List Char) : List Char → List Char
  | [] => []
  | c :: after => ofCharIn before after c ++ ofChars (c :: before) after

end SceneLayout.LowerCase

namespace SceneLayout

/-- The lower-case form of a text. -/
def lowerCase (text : String) : String := String.ofList (LowerCase.ofChars [] text.toList)

end SceneLayout
