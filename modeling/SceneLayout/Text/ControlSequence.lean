/-!
# Control sequences of terminals

A control sequence tells a terminal how to show what follows. It begins with the
escape character and an opening bracket; parameters and intermediate characters may
follow, and one final character ends it. Text for a reader that is no terminal goes
without them. An introducer that nothing ends is no control sequence and stays.
-/

namespace SceneLayout

namespace ControlSequence

/-- A digit or another character of a parameter. -/
def isParameter (c : Char) : Bool := 0x30 ≤ c.toNat && c.toNat < 0x40

/-- A character between the parameters and the end. -/
def isIntermediate (c : Char) : Bool := 0x20 ≤ c.toNat && c.toNat < 0x30

/-- A character that ends a control sequence. -/
def isFinal (c : Char) : Bool := 0x40 ≤ c.toNat && c.toNat < 0x7F

/-- What follows a control sequence whose introducer has been read. -/
def afterBody? (chars : List Char) : Option (List Char) :=
  match (chars.dropWhile isParameter).dropWhile isIntermediate with
  | c :: rest => if isFinal c then some rest else none
  | [] => none

/-- What follows a control sequence at the front of a text, if there is one. -/
def after? : List Char → Option (List Char)
  | '\x1b' :: '[' :: rest => afterBody? rest
  | _ => none

theorem length_lt_of_afterBody? {chars rest : List Char} (h : afterBody? chars = some rest) :
    rest.length < chars.length := by
  have shorter : ((chars.dropWhile isParameter).dropWhile isIntermediate).length ≤ chars.length :=
    ((List.dropWhile_sublist isIntermediate).trans
      (List.dropWhile_sublist isParameter)).length_le
  unfold afterBody? at h
  split at h
  · next c after equation =>
      split at h
      · cases h
        rw [equation] at shorter
        exact shorter
      · cases h
  · cases h

theorem length_lt_of_after? {chars rest : List Char} (h : after? chars = some rest) :
    rest.length < chars.length := by
  unfold after? at h
  split at h
  · next body =>
      have shorter := length_lt_of_afterBody? h
      simp only [List.length_cons]
      omega
  · cases h

/-- Leaves out the control sequences of what is still to be read; `before` has been kept so far,
last first. -/
def eraseOnto (before : List Char) : List Char → List Char
  | [] => before.reverse
  | c :: rest =>
      match _h : after? (c :: rest) with
      | some after => eraseOnto before after
      | none => eraseOnto (c :: before) rest
termination_by chars => chars.length
decreasing_by
  · exact length_lt_of_after? _h
  · simp

/-- The characters of a text without its control sequences. -/
def erase (chars : List Char) : List Char := eraseOnto [] chars

theorem after?_of_ne {c : Char} {rest : List Char} (h : c ≠ '\x1b') :
    after? (c :: rest) = none := by
  unfold after?
  split
  · next equation =>
      cases equation
      exact absurd rfl h
  · rfl

theorem eraseOnto_of_not_mem {before chars : List Char} (h : '\x1b' ∉ chars) :
    eraseOnto before chars = before.reverse ++ chars := by
  induction chars generalizing before with
  | nil => simp [eraseOnto]
  | cons c rest ih =>
      simp only [List.mem_cons, not_or] at h
      rw [eraseOnto]
      split
      · next found =>
          rw [after?_of_ne fun equal => h.1 equal.symm] at found
          cases found
      · rw [ih h.2, List.reverse_cons, List.append_assoc, List.singleton_append]

/-- A text without the escape character is kept. -/
theorem erase_of_not_mem {chars : List Char} (h : '\x1b' ∉ chars) : erase chars = chars :=
  eraseOnto_of_not_mem h

end ControlSequence

/-- A text without its control sequences. -/
def withoutControlSequences (text : String) : String :=
  String.ofList (ControlSequence.erase text.toList)

end SceneLayout
