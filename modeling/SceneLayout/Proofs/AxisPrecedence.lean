import SceneLayout.Proofs.AxisReading
import SceneLayout.Proofs.ShownValues

/-!
# Which property tells an axis

Several properties may tell an axis, and two of them an alignment. By the rule the first one counts
that is not null, and what it says is an axis or an alignment or is refused. The reader is more
lenient: it passes over an axis and an alignment that are void without being null, and over such a
direction, too, unless the alignment of an align node carries a letter for the axis. Nothing else
is different, so a node is read by the rule exactly if it has no such property where the rule
looks, or is refused anyway.

Main statement: `axes_read_by_rule_iff`.
-/

namespace SceneLayout

namespace Json

/-- The first of two values, or the second if the first is null. -/
def ifNull (first second : Json) : Json :=
  if first.isNull then second else first

/-- The value is there, but it says nothing: it is void without being null. -/
def IsBlank (value : Json) : Prop :=
  value.isVoid = true ∧ value.isNull = false

variable {first : Json}

@[simp] theorem ifNull_null (second : Json) : ifNull null second = second := rfl

theorem ifNull_of_not_isNull (h : first.isNull = false) (second : Json) :
    first.ifNull second = first :=
  if_neg (Bool.eq_false_iff.mp h)

theorem eq_null_of_isNull (h : first.isNull = true) : first = null := by
  cases first with
  | null => rfl
  | _ => cases h

@[simp] theorem ifNull_null_right (first : Json) : first.ifNull null = first := by
  cases isNull : first.isNull with
  | true => rw [eq_null_of_isNull isNull, ifNull_null]
  | false => exact ifNull_of_not_isNull isNull null

theorem isNull_ifNull (first second : Json) :
    (first.ifNull second).isNull = (first.isNull && second.isNull) := by
  cases isNull : first.isNull with
  | true => rw [eq_null_of_isNull isNull, ifNull_null, Bool.true_and]
  | false => rw [ifNull_of_not_isNull isNull, isNull, Bool.false_and]

theorem isNull_of_isVoid (h : ¬ first.IsBlank) (void : first.isVoid = true) :
    first.isNull = true := by
  by_contra notNull
  exact h ⟨void, Bool.eq_false_iff.mpr notNull⟩

/-- Null and void make no difference to a value that is not blank. -/
theorem ifNull_eq_orElse (h : ¬ first.IsBlank) (second : Json) :
    first.ifNull second = first.orElse second := by
  cases void : first.isVoid with
  | true => rw [eq_null_of_isNull (isNull_of_isVoid h void), ifNull_null, orElse_null]
  | false =>
      have notNull : first.isNull = false :=
        Bool.eq_false_iff.mpr fun isNull => by
          rw [isVoid_of_isNull isNull] at void
          cases void
      rw [ifNull_of_not_isNull notNull, orElse_of_not_isVoid void]

/-- A void value is null once it is replaced by null. -/
theorem not_isBlank_orElse_null (first : Json) : ¬ (first.orElse null).IsBlank := by
  rintro ⟨void, notNull⟩
  cases same : first.isVoid with
  | true =>
      rw [orElse_of_isVoid same] at notNull
      cases notNull
  | false =>
      rw [orElse_of_not_isVoid same, same] at void
      cases void

theorem orElse_assoc (first second third : Json) :
    (first.orElse second).orElse third = first.orElse (second.orElse third) := by
  cases void : first.isVoid with
  | true => rw [orElse_of_isVoid void, orElse_of_isVoid void]
  | false => rw [orElse_of_not_isVoid void, orElse_of_not_isVoid void, orElse_of_not_isVoid void]

end Json

/-! ## The rule -/

namespace Property

variable {axis : Axis} {alignment : Alignment} {value : Json} {props : Entries Json}
  {shape : Shape Binary64}

/-- The four spellings of the axes. -/
inductive SpellsAxis : Json → Axis → Prop where
  | x : SpellsAxis (.string "x") .x
  | y : SpellsAxis (.string "y") .y
  | horizontal : SpellsAxis (.string "horizontal") .x
  | vertical : SpellsAxis (.string "vertical") .y

theorem spellsAxis_iff : SpellsAxis value axis ↔ axisNamed value = .ok axis := by
  constructor
  · intro spelled
    cases spelled <;> rfl
  · intro named
    obtain ⟨name, rfl, found⟩ := axisNamed_eq_ok_iff.mp named
    have listed : name ∈ ["x", "y", "horizontal", "vertical"] := Entries.mem_keys_of_find? found
    simp only [List.mem_cons, List.not_mem_nil, or_false] at listed
    obtain rfl | rfl | rfl | rfl := listed <;> cases found
    · exact .x
    · exact .y
    · exact .horizontal
    · exact .vertical

/-- The letter for the axis that an alignment carries; null if it carries none. -/
def letterOf : Json → Json
  | .string text =>
      match splitAxis text with
      | some (letter, _) => .string letter.name
      | none => .null
  | _ => .null

/-- The first value for the axis that is not null. -/
def firstAxis (props : Entries Json) : Json :=
  (Json.member props "axis").ifNull (Json.member props "direction")

/-- The first value for the alignment that is not null. -/
def firstAlignment (props : Entries Json) : Json :=
  (Json.member props "alignment").ifNull (Json.member props "type")

/-- The shape of an align node by the rule. Without a value the axis is that of the letter, and
without a letter the first one. -/
inductive AlignsByRule (props : Entries Json) : Shape Binary64 → Prop where
  | intro {axis : Axis} {alignment : Alignment}
      (spelled : SpellsAxis
        (((firstAxis props).ifNull (letterOf (firstAlignment props))).ifNull (.string "x")) axis)
      (aligns : Aligns axis (firstAlignment props) alignment) :
      AlignsByRule props (.align axis alignment)

/-- The shape of a distribute node by the rule. Without a value the axis is the first one. -/
inductive DistributesByRule (props : Entries Json) : Shape Binary64 → Prop where
  | intro {axis : Axis} {spacing : Binary64}
      (spelled : SpellsAxis ((firstAxis props).ifNull (.string "x")) axis)
      (spaced : nonNegative props "spacing" = .ok spacing) :
      DistributesByRule props (.distribute axis spacing)

/-! ## Blank values -/

/-- What is spelled or aligned by the rule is not blank. -/
theorem SpellsAxis.not_isBlank (h : SpellsAxis value axis) : ¬ value.IsBlank := by
  rintro ⟨void, -⟩
  cases h <;> cases void

theorem Aligns.not_isBlank (h : Aligns axis value alignment) : ¬ value.IsBlank := by
  rintro ⟨void, notNull⟩
  cases h with
  | null => cases notNull
  | named found =>
      obtain rfl := String.isEmpty_iff.mp void
      cases axis <;> cases found
  | lettered split _ =>
      obtain rfl := String.isEmpty_iff.mp void
      cases split

theorem not_isBlank_of_ifNull {first second : Json} (h : ¬ (first.ifNull second).IsBlank) :
    ¬ first.IsBlank := by
  intro blank
  rw [Json.ifNull_of_not_isNull blank.2] at h
  exact h blank

theorem AlignsByRule.not_isBlank (h : AlignsByRule props shape) :
    ¬ (firstAxis props).IsBlank ∧ ¬ (Json.member props "alignment").IsBlank := by
  obtain ⟨spelled, aligns⟩ := h
  exact ⟨not_isBlank_of_ifNull (not_isBlank_of_ifNull spelled.not_isBlank),
    not_isBlank_of_ifNull aligns.not_isBlank⟩

theorem DistributesByRule.not_isBlank (h : DistributesByRule props shape) :
    ¬ (firstAxis props).IsBlank := by
  obtain ⟨spelled, -⟩ := h
  exact not_isBlank_of_ifNull spelled.not_isBlank

section Letter

variable {first second : Json}

theorem axisSource_of_no_letter (none : (letterOf second).isNull = true) :
    axisSource first second = first.orElse (.string "x") := by
  apply axisSource_of_unlettered
  rintro text rfl
  cases split : splitAxis text with
  | none => rfl
  | some found =>
      rw [letterOf, split] at none
      cases none

theorem axisSource_of_letter (some : (letterOf second).isNull = false) :
    axisSource first second = first.ifNull (letterOf second) := by
  unfold letterOf at some ⊢
  split at some
  · next text =>
      split at some
      · next letter stem split =>
          rw [axisSource_of_lettered split]
          rfl
      · cases some
  · cases some

/-- The value for the axis is taken by the rule, unless it is blank and no letter follows it. -/
theorem ifNull_letterOf_eq_axisSource
    (clear : (letterOf second).isNull = true → ¬ first.IsBlank) :
    (first.ifNull (letterOf second)).ifNull (.string "x") = axisSource first second := by
  cases letter : (letterOf second).isNull with
  | true =>
      rw [axisSource_of_no_letter letter, Json.eq_null_of_isNull letter, Json.ifNull_null_right]
      exact Json.ifNull_eq_orElse (clear letter) _
  | false =>
      rw [axisSource_of_letter letter]
      exact Json.ifNull_of_not_isNull (by rw [Json.isNull_ifNull, letter, Bool.and_false]) _

end Letter

/-! ## What the reader passes over -/

/-- The properties without one of them, if it is void. -/
def withoutVoid (name : String) (props : Entries Json) : Entries Json :=
  if (Json.member props name).isVoid then Entries.erase name props else props

theorem member_withoutVoid_self (name : String) (props : Entries Json) :
    Json.member (withoutVoid name props) name = (Json.member props name).orElse .null := by
  unfold withoutVoid
  split
  · next void => rw [Json.member_erase_self, Json.orElse_of_isVoid void]
  · next said => rw [Json.orElse_of_not_isVoid (Bool.eq_false_iff.mpr said)]

theorem member_withoutVoid_of_ne {name other : String} (h : other ≠ name) (props : Entries Json) :
    Json.member (withoutVoid name props) other = Json.member props other := by
  unfold withoutVoid
  split
  · exact Json.member_erase_of_ne h props
  · rfl

/-- The properties of an align node that the reader does not pass over. -/
def heardByAlign (props : Entries Json) : Entries Json :=
  let direction :=
    if (letterOf (alignmentValue props)).isNull then withoutVoid "direction" props else props
  withoutVoid "axis" (withoutVoid "alignment" direction)

/-- The properties of a distribute node that the reader does not pass over. -/
def heardByDistribute (props : Entries Json) : Entries Json :=
  withoutVoid "axis" (withoutVoid "direction" props)

theorem firstAlignment_heardByAlign (props : Entries Json) :
    firstAlignment (heardByAlign props) = alignmentValue props := by
  have alignment : Json.member (heardByAlign props) "alignment" =
      (Json.member props "alignment").orElse .null := by
    rw [heardByAlign, member_withoutVoid_of_ne (by decide), member_withoutVoid_self]
    split
    · rw [member_withoutVoid_of_ne (by decide)]
    · rfl
  have type : Json.member (heardByAlign props) "type" = Json.member props "type" := by
    rw [heardByAlign, member_withoutVoid_of_ne (by decide), member_withoutVoid_of_ne (by decide)]
    split
    · rw [member_withoutVoid_of_ne (by decide)]
    · rfl
  rw [firstAlignment, alignment, type, Json.ifNull_eq_orElse (Json.not_isBlank_orElse_null _),
    Json.orElse_assoc, Json.orElse_null]
  rfl

/-- Beside a letter a direction is heard as it is, and else only if it is not void. -/
theorem firstAxis_heardByAlign (props : Entries Json) :
    firstAxis (heardByAlign props) =
      if (letterOf (alignmentValue props)).isNull then (axisValue props).orElse .null
      else axisValue props := by
  have axis : Json.member (heardByAlign props) "axis" =
      (Json.member props "axis").orElse .null := by
    rw [heardByAlign, member_withoutVoid_self, member_withoutVoid_of_ne (by decide)]
    split
    · rw [member_withoutVoid_of_ne (by decide)]
    · rfl
  have direction : Json.member (heardByAlign props) "direction" =
      if (letterOf (alignmentValue props)).isNull then (Json.member props "direction").orElse .null
      else Json.member props "direction" := by
    rw [heardByAlign, member_withoutVoid_of_ne (by decide), member_withoutVoid_of_ne (by decide),
      apply_ite (Json.member · "direction"), member_withoutVoid_self]
  rw [firstAxis, axis, direction, Json.ifNull_eq_orElse (Json.not_isBlank_orElse_null _),
    Json.orElse_assoc, Json.orElse_null]
  split
  · exact (Json.orElse_assoc _ _ _).symm
  · rfl

theorem firstAxis_heardByDistribute (props : Entries Json) :
    firstAxis (heardByDistribute props) = (axisValue props).orElse .null := by
  rw [firstAxis, heardByDistribute, member_withoutVoid_self,
    member_withoutVoid_of_ne (by decide), member_withoutVoid_of_ne (by decide),
    member_withoutVoid_self, Json.ifNull_eq_orElse (Json.not_isBlank_orElse_null _),
    Json.orElse_assoc, Json.orElse_null, axisValue, Json.orElse_assoc]

/-! ## Reading by the rule -/

/-- Properties with the alignment and the axis that the reader takes give by the rule what the
reader gives. -/
theorem alignsByRule_iff {others : Entries Json}
    (alignment : firstAlignment others = alignmentValue props)
    (axis : ((firstAxis others).ifNull (letterOf (alignmentValue props))).ifNull (.string "x") =
      axisSource (axisValue props) (alignmentValue props)) :
    AlignsByRule others shape ↔ Tree.Declares "Align" props shape := by
  rw [Tree.declares_align_iff]
  constructor
  · rintro ⟨spelled, aligns⟩
    rw [alignment, axis, spellsAxis_iff] at spelled
    rw [alignment] at aligns
    exact ⟨_, _, axisAndAlignment_eq_ok_iff.mpr ⟨spelled, aligns⟩, rfl⟩
  · rintro ⟨found, other, read, rfl⟩
    obtain ⟨named, aligns⟩ := axisAndAlignment_eq_ok_iff.mp read
    rw [← axis, ← alignment, ← spellsAxis_iff] at named
    rw [← alignment] at aligns
    exact .intro named aligns

theorem distributesByRule_iff {others : Entries Json}
    (axis : (firstAxis others).ifNull (.string "x") = (axisValue props).orElse (.string "x"))
    (spacing : Json.member others "spacing" = Json.member props "spacing") :
    DistributesByRule others shape ↔ Tree.Declares "Distribute" props shape := by
  rw [Tree.declares_distribute_iff]
  constructor
  · rintro ⟨spelled, spaced⟩
    rw [axis, spellsAxis_iff] at spelled
    rw [nonNegative_congr spacing] at spaced
    exact ⟨_, _, spelled, spaced, rfl⟩
  · rintro ⟨found, gap, named, spaced, rfl⟩
    rw [← nonNegative_congr spacing] at spaced
    have spelled : SpellsAxis ((axisValue props).orElse (.string "x")) found :=
      spellsAxis_iff.mpr named
    rw [← axis] at spelled
    exact .intro spelled spaced

/-- What is heard is read by the rule. -/
theorem alignsByRule_heardByAlign_iff :
    AlignsByRule (heardByAlign props) shape ↔ Tree.Declares "Align" props shape := by
  apply alignsByRule_iff (firstAlignment_heardByAlign props)
  rw [firstAxis_heardByAlign]
  split
  · next none =>
      rw [ifNull_letterOf_eq_axisSource fun _ => Json.not_isBlank_orElse_null _,
        axisSource_of_no_letter none, axisSource_of_no_letter none, Json.orElse_assoc,
        Json.orElse_null]
  · next some => exact ifNull_letterOf_eq_axisSource fun none => absurd none some

theorem distributesByRule_heardByDistribute_iff :
    DistributesByRule (heardByDistribute props) shape ↔ Tree.Declares "Distribute" props shape := by
  apply distributesByRule_iff
  · rw [firstAxis_heardByDistribute, Json.ifNull_eq_orElse (Json.not_isBlank_orElse_null _),
      Json.orElse_assoc, Json.orElse_null]
  · rw [heardByDistribute, member_withoutVoid_of_ne (by decide),
      member_withoutVoid_of_ne (by decide)]

/-- The reader takes the first value that is not null if no value stands before another one and
says nothing. -/
theorem axisValue_eq_firstAxis (said : ¬ (firstAxis props).IsBlank) :
    axisValue props = firstAxis props :=
  (Json.ifNull_eq_orElse (not_isBlank_of_ifNull said) _).symm

theorem alignsByRule_iff_of_not_isBlank (axis : ¬ (firstAxis props).IsBlank)
    (alignment : ¬ (Json.member props "alignment").IsBlank) :
    AlignsByRule props shape ↔ Tree.Declares "Align" props shape := by
  apply alignsByRule_iff (Json.ifNull_eq_orElse alignment _)
  rw [axisValue_eq_firstAxis axis]
  exact ifNull_letterOf_eq_axisSource fun _ => axis

theorem distributesByRule_iff_of_not_isBlank (axis : ¬ (firstAxis props).IsBlank) :
    DistributesByRule props shape ↔ Tree.Declares "Distribute" props shape := by
  apply distributesByRule_iff _ rfl
  rw [axisValue_eq_firstAxis axis]
  exact Json.ifNull_eq_orElse axis _

end Property

namespace Tree

open Property

variable {type : String} {props : Entries Json} {rule : Shape Binary64 → Prop}

/-- Reading a node of a type goes by a rule on shapes. A node with a shape by the rule keeps its
names and gets the trees of its children, and a node without one is refused in its own place. The
place is not told if one of the properties cannot be shown, and it is this one that is refused. -/
structure ReadBy (type : String) (props : Entries Json) (rule : Shape Binary64 → Prop) : Prop where
  read : ∀ shape, rule shape → ∀ path id key children target,
    ofRaw path ⟨some type, id, key, props, children, target⟩ =
      (ofRawAll path 0 children).map (.node key id shape)
  refused : (∀ shape, ¬ rule shape) → ∀ path id key children target,
    (∃ refusal, ofRaw path ⟨some type, id, key, props, children, target⟩ =
      .error (.refused (some type) path refusal)) ∨
    ¬ (Json.object props).Shown ∧
      ofRaw path ⟨some type, id, key, props, children, target⟩ = .error .unshown

section Reading

variable {path : TreePath} {id key target : Option String} {children : List RawNode}
  {shape : Shape Binary64}

theorem ofRaw_of_declares (known : type ≠ "Ref") (declares : Declares type props shape) :
    ofRaw path ⟨some type, id, key, props, children, target⟩ =
      (ofRawAll path 0 children).map (.node key id shape) := by
  rw [ofRaw.eq_def]
  dsimp only
  rw [if_neg (by simpa using known), declares]
  cases ofRawAll path 0 children <;> rfl

theorem ofRaw_of_refused (known : type ≠ "Ref") {error : PropertyError}
    (refused : Shape.ofProps (some type) props = .error error) :
    ofRaw path ⟨some type, id, key, props, children, target⟩ =
      .error (error.inNode (some type) path) := by
  rw [ofRaw.eq_def]
  dsimp only
  rw [if_neg (by simpa using known), refused]

end Reading

/-- A rule tells how nodes of a type are read exactly if it tells which shapes they declare. -/
theorem readBy_iff (known : type ≠ "Ref") :
    ReadBy type props rule ↔ ∀ shape, rule shape ↔ Declares type props shape := by
  have leaf : ofRawAll .top 0 [] = .ok [] := by rw [ofRawAll]
  constructor
  · rintro ⟨read, refused⟩
    -- A node without children shows what its properties declare.
    have declares : ∀ shape, rule shape → Declares type props shape := by
      intro shape holds
      have byRule := read shape holds .top none none [] none
      cases declared : Shape.ofProps (some type) props with
      | error cause =>
          rw [ofRaw_of_refused known declared, leaf] at byRule
          cases byRule
      | ok other =>
          rw [ofRaw_of_declares known declared, leaf] at byRule
          cases byRule
          exact declared
    intro shape
    refine ⟨declares shape, fun declared => ?_⟩
    by_contra fails
    have ruleless : ∀ other, ¬ rule other := by
      intro other holds
      have again := declares other holds
      rw [Declares, declared] at again
      cases again
      exact fails holds
    obtain ⟨refusal, byRule⟩ | ⟨-, byRule⟩ := refused ruleless .top none none [] none <;>
      rw [ofRaw_of_declares known declared, leaf] at byRule <;> cases byRule
  · intro same
    refine ⟨fun shape holds path id key children target => ?_,
      fun none path id key children target => ?_⟩
    · exact ofRaw_of_declares known ((same shape).mp holds)
    · cases declared : Shape.ofProps (some type) props with
      | error error =>
          cases error with
          | refused refusal => exact .inl ⟨refusal, ofRaw_of_refused known declared⟩
          | unshown =>
              exact .inr ⟨fun shown => Property.tells_shape shown _ declared,
                ofRaw_of_refused known declared⟩
      | ok shape => exact absurd ((same shape).mpr declared) (none shape)

/-- A rule that is at most stricter than the reader, and agrees with it on certain properties, is
the reader's exactly on these or where nothing is read. -/
theorem readBy_iff_of_strict (known : type ≠ "Ref") {clear : Prop}
    (strict : ∀ shape, rule shape → clear)
    (agrees : clear → ∀ shape, rule shape ↔ Declares type props shape) :
    ReadBy type props rule ↔ (∀ shape, ¬ Declares type props shape) ∨ clear := by
  rw [readBy_iff known]
  constructor
  · intro same
    by_contra neither
    rw [not_or] at neither
    exact neither.1 fun shape declares =>
      neither.2 (strict shape ((same shape).mpr declares))
  · rintro (none | holds)
    · exact fun shape => iff_of_false
        (fun byRule => none shape ((agrees (strict shape byRule) shape).mp byRule)) (none shape)
    · exact agrees holds

end Tree

open Property in
/-- Align nodes and distribute nodes are read by the rule from the properties that the reader does
not pass over. So they are read by the rule from all their properties exactly if none of those that
come first, for the axis or for the alignment, is blank, or if they are refused anyway. -/
theorem axes_read_by_rule_iff (props : Entries Json) :
    (Tree.ReadBy "Align" props (AlignsByRule (heardByAlign props)) ∧
      (Tree.ReadBy "Align" props (AlignsByRule props) ↔
        (∀ shape, ¬ Tree.Declares "Align" props shape) ∨
          ¬ (firstAxis props).IsBlank ∧ ¬ (Json.member props "alignment").IsBlank)) ∧
    Tree.ReadBy "Distribute" props (DistributesByRule (heardByDistribute props)) ∧
      (Tree.ReadBy "Distribute" props (DistributesByRule props) ↔
        (∀ shape, ¬ Tree.Declares "Distribute" props shape) ∨ ¬ (firstAxis props).IsBlank) := by
  have align : "Align" ≠ "Ref" := by decide
  have distribute : "Distribute" ≠ "Ref" := by decide
  refine ⟨⟨?_, ?_⟩, ?_, ?_⟩
  · exact (Tree.readBy_iff align).mpr fun _ => alignsByRule_heardByAlign_iff
  · exact Tree.readBy_iff_of_strict align (fun _ byRule => byRule.not_isBlank)
      fun clear _ => alignsByRule_iff_of_not_isBlank clear.1 clear.2
  · exact (Tree.readBy_iff distribute).mpr fun _ => distributesByRule_heardByDistribute_iff
  · exact Tree.readBy_iff_of_strict distribute (fun _ byRule => byRule.not_isBlank)
      fun clear _ => distributesByRule_iff_of_not_isBlank clear

/-- A column of entries with a blank axis. -/
def blankAxis : Entries Json := [("axis", .string ""), ("direction", .string "vertical")]

open Property in
/-- By the rule the blank axis is refused, but the reader takes the direction. -/
theorem blankAxis_read_apart :
    (∀ shape, ¬ AlignsByRule blankAxis shape) ∧
      Tree.Declares "Align" blankAxis (.align .y .start) ∧
      ¬ Tree.ReadBy "Align" blankAxis (AlignsByRule blankAxis) ∧
      (∀ shape, ¬ DistributesByRule blankAxis shape) ∧
      Tree.Declares "Distribute" blankAxis (.distribute .y (.zero false)) ∧
      ¬ Tree.ReadBy "Distribute" blankAxis (DistributesByRule blankAxis) := by
  have blank : (firstAxis blankAxis).IsBlank := ⟨rfl, rfl⟩
  have aligns : ∀ shape, ¬ AlignsByRule blankAxis shape :=
    fun _ byRule => byRule.not_isBlank.1 blank
  have distributes : ∀ shape, ¬ DistributesByRule blankAxis shape :=
    fun _ byRule => byRule.not_isBlank blank
  refine ⟨aligns, rfl, fun byRule => ?_, distributes, rfl, fun byRule => ?_⟩
  · exact aligns _ (((Tree.readBy_iff (by decide)).mp byRule (.align .y .start)).mpr rfl)
  · exact distributes _
      (((Tree.readBy_iff (by decide)).mp byRule (.distribute .y (.zero false))).mpr rfl)

end SceneLayout
