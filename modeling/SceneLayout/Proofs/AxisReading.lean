import SceneLayout.Proofs.NodeSchema
import SceneLayout.Proofs.PropertyReading

/-!
# How an axis and an alignment are read

An align node has four properties that may tell its axis and its alignment, and the alignment may
carry a letter for the axis. Reading comes down to two questions: which value is taken for the
axis, and whether the value for the alignment is one along this axis.

Main statement: `axisAndAlignment_eq_ok_iff`.
-/

namespace SceneLayout

namespace Property

variable {axis letter : Axis} {alignment : Alignment} {value : Json} {text stem : String}

theorem axisNamed_eq_ok_iff :
    axisNamed value = .ok axis ↔
      ∃ name, value = .string name ∧ Entries.find? axisNames name = some axis := by
  unfold axisNamed
  split
  · next name => cases found : Entries.find? axisNames name <;> simp [found]
  · next notText =>
      refine ⟨fun h => (by cases h), ?_⟩
      rintro ⟨name, rfl, -⟩
      exact absurd rfl (notText name)

theorem axisNamed_name (axis : Axis) : axisNamed (.string axis.name) = .ok axis := by
  cases axis <;> rfl

/-- No void value names an axis. -/
theorem orElse_of_axisNamed (named : axisNamed value = .ok axis) (other : Json) :
    value.orElse other = value := by
  obtain ⟨name, rfl, found⟩ := axisNamed_eq_ok_iff.mp named
  apply Json.string_orElse
  rintro rfl
  cases found

theorem alignmentNamed_eq_ok_iff {names : Entries Alignment} :
    alignmentNamed names value = .ok alignment ↔
      ∃ name, value = .string name ∧ Entries.find? names name = some alignment := by
  unfold alignmentNamed
  split
  · next name => cases found : Entries.find? names name <;> simp [found]
  · next notText =>
      refine ⟨fun h => (by cases h), ?_⟩
      rintro ⟨name, rfl, -⟩
      exact absurd rfl (notText name)

/-- No name of an alignment ends in a letter for an axis. -/
theorem splitAxis_of_find?_alignmentNames
    (found : Entries.find? (alignmentNames axis) text = some alignment) :
    splitAxis text = none := by
  have plain : ∀ name ∈ Entries.keys (alignmentNames axis), splitAxis name = none := by
    cases axis <;> decide
  exact plain text (Entries.mem_keys_of_find? found)

/-- A text with a letter is not void, and neither is a name. -/
theorem orElse_of_splitAxis (split : splitAxis text = some (letter, stem)) (other : Json) :
    (Json.string text).orElse other = .string text := by
  apply Json.string_orElse
  rintro rfl
  cases split

theorem orElse_of_find?_alignmentNames
    (found : Entries.find? (alignmentNames axis) text = some alignment) (other : Json) :
    (Json.string text).orElse other = .string text := by
  apply Json.string_orElse
  rintro rfl
  cases axis <;> cases found

/-- What a value tells along an axis: null the near edge, and a text the alignment that it names,
with the letter of the axis or without it. -/
inductive Aligns (axis : Axis) : Json → Alignment → Prop where
  | null : Aligns axis .null .start
  | named {text : String} {alignment : Alignment}
      (found : Entries.find? (alignmentNames axis) text = some alignment) :
      Aligns axis (.string text) alignment
  | lettered {text stem : String} {alignment : Alignment}
      (split : splitAxis text = some (axis, stem))
      (found : Entries.find? (alignmentNames axis) stem = some alignment) :
      Aligns axis (.string text) alignment

namespace Aligns

theorem string_iff_of_unlettered (plain : splitAxis text = none) :
    Aligns axis (.string text) alignment ↔
      Entries.find? (alignmentNames axis) text = some alignment := by
  constructor
  · intro h
    cases h with
    | named found => exact found
    | lettered split _ =>
        rw [plain] at split
        cases split
  · exact .named

theorem string_iff_of_lettered (split : splitAxis text = some (letter, stem)) :
    Aligns axis (.string text) alignment ↔
      axis = letter ∧ Entries.find? (alignmentNames letter) stem = some alignment := by
  constructor
  · intro h
    cases h with
    | named found =>
        rw [splitAxis_of_find?_alignmentNames found] at split
        cases split
    | lettered again found =>
        rw [again] at split
        cases split
        exact ⟨rfl, found⟩
  · rintro ⟨rfl, found⟩
    exact .lettered split found

end Aligns

/-- The value that is taken for the axis. A letter counts only if there is no other value; without
one a void value leaves the first axis. -/
def axisSource (axisValue alignmentValue : Json) : Json :=
  match alignmentValue with
  | .string text =>
      match splitAxis text with
      | some (letter, _) => if axisValue.isNull then .string letter.name else axisValue
      | none => axisValue.orElse (.string "x")
  | _ => axisValue.orElse (.string "x")

/-- The value for the axis among the properties of an align node. -/
def axisValue (props : Entries Json) : Json :=
  (Json.member props "axis").orElse (Json.member props "direction")

/-- The value for the alignment among the properties of an align node. -/
def alignmentValue (props : Entries Json) : Json :=
  (Json.member props "alignment").orElse (Json.member props "type")

/-- The alignment that a value names along an axis; null names the near edge. -/
def alignmentAlong (axis : Axis) (value : Json) : Except PropertyError Alignment :=
  if value.isNull then .ok .start else alignmentNamed (alignmentNames axis) value

/-- The axis and the alignment that two values name. -/
def namedByValues (axisValue alignmentValue : Json) : Except PropertyError (Axis × Alignment) := do
  let axis ← axisNamed (axisValue.orElse (.string "x"))
  let alignment ← alignmentAlong axis alignmentValue
  return (axis, alignment)

theorem axisAndAlignment_eq (props : Entries Json) :
    axisAndAlignment props =
      withoutAxisLetter (axisValue props) (alignmentValue props) >>= fun values =>
        namedByValues values.1 values.2 := by
  have named (values : Json × Json) : namedByValues values.1 values.2 =
      axisNamed (values.1.orElse (.string "x")) >>= fun axis =>
        if values.2.isNull then pure (axis, .start)
        else alignmentNamed (alignmentNames axis) values.2 >>= fun alignment =>
          pure (axis, alignment) := by
    refine congrArg (axisNamed _ >>= ·) (funext fun axis => ?_)
    rw [alignmentAlong]
    split <;> rfl
  simp only [named]
  rfl

theorem alignmentAlong_string_eq_ok_iff :
    alignmentAlong axis (.string text) = .ok alignment ↔
      Entries.find? (alignmentNames axis) text = some alignment := by
  have named : alignmentAlong axis (.string text) =
      alignmentNamed (alignmentNames axis) (.string text) := rfl
  rw [named, alignmentNamed_eq_ok_iff]
  simp

theorem alignmentAlong_eq_ok_iff (plain : ∀ text, value = .string text → splitAxis text = none) :
    alignmentAlong axis value = .ok alignment ↔ Aligns axis value alignment := by
  cases value with
  | null =>
      constructor
      · rintro ⟨⟩
        exact .null
      · rintro ⟨⟩
        rfl
  | string text =>
      rw [alignmentAlong_string_eq_ok_iff, Aligns.string_iff_of_unlettered (plain text rfl)]
  | _ =>
      constructor
      · rintro ⟨⟩
      · rintro ⟨⟩

theorem namedByValues_eq_ok_iff {first second : Json} :
    namedByValues first second = .ok (axis, alignment) ↔
      axisNamed (first.orElse (.string "x")) = .ok axis ∧
        alignmentAlong axis second = .ok alignment := by
  constructor
  · intro h
    obtain ⟨found, isAxis, h⟩ := exists_of_bind_eq_ok h
    obtain ⟨other, isAlignment, same⟩ := exists_of_bind_eq_ok h
    cases same
    exact ⟨isAxis, isAlignment⟩
  · rintro ⟨isAxis, isAlignment⟩
    rw [namedByValues, isAxis]
    change alignmentAlong axis second >>= _ = _
    rw [isAlignment]
    rfl

section Letter

variable {first second : Json}

theorem axisSource_of_unlettered (plain : ∀ text, second = .string text → splitAxis text = none) :
    axisSource first second = first.orElse (.string "x") := by
  unfold axisSource
  split
  · next text => rw [plain text rfl]
  · rfl

theorem axisSource_of_lettered (split : splitAxis text = some (letter, stem)) :
    axisSource first (.string text) = if first.isNull then .string letter.name else first := by
  rw [axisSource, split]

theorem axisSource_of_axisNamed (named : axisNamed first = .ok axis) :
    axisSource first second = first := by
  obtain ⟨name, isText, -⟩ := axisNamed_eq_ok_iff.mp named
  unfold axisSource
  split
  · split
    · rw [isText]
      rfl
    · exact orElse_of_axisNamed named _
  · exact orElse_of_axisNamed named _

theorem withoutAxisLetter_of_unlettered
    (plain : ∀ text, second = .string text → splitAxis text = none) :
    withoutAxisLetter first second = .ok (first, second) := by
  unfold withoutAxisLetter
  split
  · next text => rw [plain text rfl]
  · rfl

theorem withoutAxisLetter_of_lettered (split : splitAxis text = some (letter, stem)) :
    withoutAxisLetter first (.string text) =
      axisNamed (axisSource first (.string text)) >>= fun axis =>
        .ok (axisSource first (.string text), .string (if axis = letter then stem else text)) := by
  rw [withoutAxisLetter, axisSource_of_lettered split, split]
  refine congrArg (axisNamed _ >>= ·) (funext fun axis => ?_)
  rw [apply_ite Json.string]
  rfl

end Letter

/-- An align node has an axis and an alignment exactly if the value that is taken for the axis names
it and the value for the alignment is one along it. -/
theorem axisAndAlignment_eq_ok_iff {props : Entries Json} :
    axisAndAlignment props = .ok (axis, alignment) ↔
      axisNamed (axisSource (axisValue props) (alignmentValue props)) = .ok axis ∧
        Aligns axis (alignmentValue props) alignment := by
  rw [axisAndAlignment_eq]
  generalize axisValue props = first
  generalize alignmentValue props = second
  by_cases plain : ∀ text, second = .string text → splitAxis text = none
  · rw [withoutAxisLetter_of_unlettered plain, axisSource_of_unlettered plain,
      ← alignmentAlong_eq_ok_iff plain]
    exact namedByValues_eq_ok_iff
  · push Not at plain
    obtain ⟨text, rfl, lettered⟩ := plain
    obtain ⟨⟨letter, stem⟩, split⟩ := Option.ne_none_iff_exists'.mp lettered
    rw [withoutAxisLetter_of_lettered split, Aligns.string_iff_of_lettered split]
    cases named : axisNamed (axisSource first (.string text)) with
    | error error =>
        constructor
        · rintro ⟨⟩
        · rintro ⟨⟨⟩, -⟩
    | ok found =>
        change namedByValues _ (.string (if found = letter then stem else text)) = _ ↔ _
        rw [namedByValues_eq_ok_iff, orElse_of_axisNamed named, named,
          alignmentAlong_string_eq_ok_iff]
        apply and_congr_right
        rintro ⟨⟩
        by_cases same : axis = letter
        · simp [same]
        · rw [if_neg same]
          constructor
          · intro found
            rw [splitAxis_of_find?_alignmentNames found] at split
            cases split
          · exact fun lettered => absurd lettered.1 same

end Property

/-! ## Shapes along an axis -/

namespace Tree

open Property

variable {props : Entries Json} {shape : Shape Binary64}

theorem declares_align_iff :
    Declares "Align" props shape ↔
      ∃ axis alignment, axisAndAlignment props = .ok (axis, alignment) ∧
        shape = .align axis alignment := by
  constructor
  · intro declares
    obtain ⟨⟨axis, alignment⟩, read, declares⟩ := exists_of_bind_eq_ok declares
    cases declares
    exact ⟨axis, alignment, read, rfl⟩
  · rintro ⟨axis, alignment, read, rfl⟩
    rw [Declares, Shape.ofProps, read]
    rfl

theorem declares_distribute_iff :
    Declares "Distribute" props shape ↔
      ∃ axis spacing, distributionAxis props = .ok axis ∧
        nonNegative props "spacing" = .ok spacing ∧ shape = .distribute axis spacing := by
  constructor
  · intro declares
    obtain ⟨axis, isAxis, declares⟩ := exists_of_bind_eq_ok declares
    obtain ⟨spacing, isSpacing, declares⟩ := exists_of_bind_eq_ok declares
    cases declares
    exact ⟨axis, spacing, isAxis, isSpacing, rfl⟩
  · rintro ⟨axis, spacing, isAxis, isSpacing, rfl⟩
    rw [Declares, Shape.ofProps, isAxis]
    change nonNegative props "spacing" >>= _ = _
    rw [isSpacing]
    rfl

end Tree

end SceneLayout
