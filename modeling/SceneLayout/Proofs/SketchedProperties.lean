import SceneLayout.Proofs.AxisReading
import SceneLayout.Proofs.Failures
import SceneLayout.Proofs.NodeSchema
import SceneLayout.Sketch

/-!
# Sketched properties

A sketch rewrites two properties before they are declared. It spells the direction of a distribute
node as an axis, and it takes the letter for the axis off the alignment of an align node. What is
declared is not always read as the properties are that were given: a direction is taken over an
axis or dropped, and a letter over a direction. Here is exactly when both are read alike.

Main statements: `distribute_read_alike_iff`, `align_read_alike_iff`.
-/

namespace SceneLayout

/-! ## Values that are read alike -/

namespace Json

/-- The value is refused for its schema, where a part of it that cannot be shown is not told. -/
def Refused (value : Json) : Prop :=
  ∃ error, Tree.ofJson? value = .error error ∧
    (error.OfSchema ∨ ¬ value.Shown ∧ error = .node .unshown)

/-- The value is read as a node of the shape. -/
def ReadAs (value : Json) (shape : Shape Binary64) : Prop :=
  ∃ key id children, Tree.ofJson? value = .ok (.node key id shape children)

/-- Both values are refused, or both are read as nodes of the same shape. -/
def ReadAlike (first second : Json) : Prop :=
  (first.Refused ∧ second.Refused) ∨ ∃ shape, first.ReadAs shape ∧ second.ReadAs shape

variable {first second : Json} {shape other : Shape Binary64}

/-- A value that can be shown is refused for its schema and told. -/
theorem Refused.ofSchema (h : first.Refused) (shown : first.Shown) :
    ∃ error, Tree.ofJson? first = .error error ∧ error.OfSchema := by
  obtain ⟨error, refused, schema | ⟨hidden, -⟩⟩ := h
  · exact ⟨error, refused, schema⟩
  · exact absurd shown hidden

theorem ReadAs.not_refused (h : first.ReadAs shape) : ¬ first.Refused := by
  rintro ⟨error, refused, -⟩
  obtain ⟨_, _, _, read⟩ := h
  rw [read] at refused
  cases refused

theorem ReadAs.unique (h : first.ReadAs shape) (again : first.ReadAs other) : shape = other := by
  obtain ⟨_, _, _, read⟩ := h
  obtain ⟨_, _, _, readAgain⟩ := again
  rw [read] at readAgain
  cases readAgain
  rfl

theorem ReadAs.readAlike_iff (h : first.ReadAs shape) :
    first.ReadAlike second ↔ second.ReadAs shape := by
  constructor
  · rintro (⟨refused, -⟩ | ⟨found, read, readToo⟩)
    · exact absurd refused h.not_refused
    · exact h.unique read ▸ readToo
  · exact fun readToo => .inr ⟨shape, h, readToo⟩

end Json

/-- The members are those of a node with a shape of its own and without children. -/
structure DeclaredNode.IsLeafOf (node : DeclaredNode) (members : Entries Json) : Prop where
  declared : node.IsDeclaredBy members
  type : node.type ≠ "Ref"
  leaf : node.items = []

namespace DeclaredNode.IsLeafOf

variable {node other : DeclaredNode} {members others : Entries Json} {shape : Shape Binary64}

theorem ofJson?_eq (h : node.IsLeafOf members) :
    Tree.ofJson? (.object members) = (Tree.ofRaw .top (node.raw [])).mapError .node := by
  have items : RawNode.checkItems 0 node.items = ⟨[], []⟩ := by rw [h.leaf, RawNode.checkItems]
  have obeys : node.ObeysRefs := fun isRef => absurd isRef h.type
  have checked : RawNode.ofJson? (.object members) = .ok (node.raw []) :=
    RawNode.ofJson?_eq_ok_iff_check.mpr
      (RawNode.check_object_eq_iff.mpr ⟨node, h.declared, obeys, [], items, rfl⟩)
  rw [Tree.ofJson?, Tree.ofJson?.declaredValue]
  · dsimp only
    rw [checked]
  · exact fun _ => Json.noConfusion

theorem ofJson?_eq_ok_iff (h : node.IsLeafOf members) {tree : Tree Binary64} :
    Tree.ofJson? (.object members) = .ok tree ↔
      ∃ shape, Tree.Declares node.type node.props shape ∧
        tree = .node node.key node.id shape [] := by
  rw [h.ofJson?_eq]
  cases read : Tree.ofRaw .top (node.raw []) with
  | error reason =>
      constructor
      · rintro ⟨⟩
      · rintro ⟨shape, declares, -⟩
        have accepted : Tree.ofRaw .top (node.raw []) = .ok (.node node.key node.id shape []) :=
          (Tree.ofRaw_raw_eq_ok_iff h.type).mpr
            ⟨shape, [], declares, by rw [Tree.ofRawAll], rfl⟩
        rw [read] at accepted
        cases accepted
  | ok found =>
      obtain ⟨shape, trees, declares, below, rfl⟩ := (Tree.ofRaw_raw_eq_ok_iff h.type).mp read
      rw [Tree.ofRawAll] at below
      cases below
      constructor
      · rintro ⟨⟩
        exact ⟨shape, declares, rfl⟩
      · rintro ⟨other, again, rfl⟩
        rw [Tree.Declares, declares] at again
        cases again
        rfl

theorem readAs_iff (h : node.IsLeafOf members) :
    (Json.object members).ReadAs shape ↔ Tree.Declares node.type node.props shape := by
  constructor
  · rintro ⟨key, id, children, read⟩
    obtain ⟨found, declares, same⟩ := h.ofJson?_eq_ok_iff.mp read
    cases same
    exact declares
  · intro declares
    exact ⟨_, _, _, h.ofJson?_eq_ok_iff.mpr ⟨shape, declares, rfl⟩⟩

theorem refused_iff (h : node.IsLeafOf members) :
    (Json.object members).Refused ↔ ∀ shape, ¬ Tree.Declares node.type node.props shape := by
  constructor
  · rintro ⟨error, refused, -⟩ shape declares
    rw [h.ofJson?_eq_ok_iff.mpr ⟨shape, declares, rfl⟩] at refused
    cases refused
  · intro none
    cases read : Tree.ofJson? (.object members) with
    | error error => exact ⟨error, read, Tree.ofSchema_of_ofJson?_eq_error read⟩
    | ok tree =>
        obtain ⟨shape, declares, -⟩ := h.ofJson?_eq_ok_iff.mp read
        exact absurd declares (none shape)

/-- Two leaves are read alike exactly if their properties declare the same shapes. -/
theorem readAlike_iff (h : node.IsLeafOf members) (h' : other.IsLeafOf others) :
    (Json.object members).ReadAlike (.object others) ↔
      ∀ shape, Tree.Declares node.type node.props shape ↔
        Tree.Declares other.type other.props shape := by
  simp only [Json.ReadAlike, h.refused_iff, h'.refused_iff, h.readAs_iff, h'.readAs_iff]
  constructor
  · rintro (⟨none, noneToo⟩ | ⟨shape, first, second⟩) found
    · exact iff_of_false (none found) (noneToo found)
    · rw [Tree.Declares, first, Tree.Declares, second]
  · intro same
    by_cases some : ∃ shape, Tree.Declares node.type node.props shape
    · obtain ⟨shape, declares⟩ := some
      exact .inr ⟨shape, declares, (same shape).mp declares⟩
    · have none := not_exists.mp some
      exact .inl ⟨none, fun shape declares => none shape ((same shape).mpr declares)⟩

end DeclaredNode.IsLeafOf

/-! ## Sketched leaves -/

namespace Sketch

variable {props : Entries Json}

/-- A node that is declared by its type and its properties only. -/
def plain (type : String) (props : Entries Json) : Json :=
  .object [("type", .string type), ("props", .object props)]

theorem isLeafOf_plain {type : String} (known : type ≠ "Ref") (props : Entries Json) :
    DeclaredNode.IsLeafOf ⟨type, none, none, props, [], none⟩
      [("type", .string type), ("props", .object props)] where
  declared := ⟨rfl, .null, .null, .object props, .null, .null, by simp [Entries.keys]⟩
  type := known
  leaf := rfl

theorem isLeafOf_branch {type : String} (known : type ≠ "Ref") (id : String)
    (props : Entries Json) :
    DeclaredNode.IsLeafOf ⟨type, some id, none, props, [], none⟩
      [("type", .string type), ("id", .string id), ("props", .object props),
        ("children", .array [])] where
  declared := ⟨rfl, .string id, .null, .object props, .array [], .null, by simp [Entries.keys]⟩
  type := known
  leaf := rfl

theorem named_of_unnamed (unnamed : Json.member props "name" = .null) (stem : String)
    (counter : Counter) :
    named stem props counter =
      (.string (freshName stem counter).1, Entries.erase "name" props,
        (freshName stem counter).2) := by
  rw [named, unnamed]

/-- The properties are the same but for the name. -/
def SameBesideName (props others : Entries Json) : Prop :=
  ∀ key ≠ "name", Entries.find? props key = Entries.find? others key

namespace SameBesideName

theorem erase_name (props : Entries Json) :
    SameBesideName (Entries.erase "name" props) props :=
  fun _ other => Entries.find?_erase_of_ne other props

variable {others : Entries Json} (same : SameBesideName props others)
include same

theorem symm : SameBesideName others props :=
  fun key other => (same key other).symm

theorem member {key : String} (other : key ≠ "name") :
    Json.member props key = Json.member others key := by
  rw [Json.member, Json.member, same key other]

theorem contains {key : String} (other : key ≠ "name") :
    Entries.contains props key = Entries.contains others key := by
  rw [Entries.contains_eq_isSome_find?, Entries.contains_eq_isSome_find?, same key other]

end SameBesideName

/-! ## Directions -/

section Distribute

open Property

/-- Of a direction only the two long spellings count, and these count before an axis. -/
theorem distributionAxis_of_vertical (h : Json.member props "direction" = .string "vertical") :
    distributionAxis (distributeProps props) = .ok .y := by
  simp only [distributionAxis, distributeProps, h, Json.member_insert_self]
  rfl

theorem distributionAxis_of_horizontal (h : Json.member props "direction" = .string "horizontal") :
    distributionAxis (distributeProps props) = .ok .x := by
  simp only [distributionAxis, distributeProps, h, Json.member_insert_self]
  rfl

theorem distributionAxis_of_other
    (notVertical : Json.member props "direction" ≠ .string "vertical")
    (notHorizontal : Json.member props "direction" ≠ .string "horizontal") :
    distributionAxis (distributeProps props) =
      axisNamed ((Json.member props "axis").orElse (.string "x")) := by
  have rest : distributeProps props = Entries.erase "direction" props := by
    unfold distributeProps
    split
    · next isVertical => exact absurd isVertical notVertical
    · next isHorizontal => exact absurd isHorizontal notHorizontal
    · rfl
  rw [distributionAxis, rest, Json.member_erase_self, Json.member_erase_of_ne (by decide),
    Json.orElse_null_orElse]

/-- No direction is lost in the sketch: a long spelling tells the axis that is read without the
sketch, and any other direction leaves the axis to another value, or to the first axis. -/
structure KeepsDirection (props : Entries Json) : Prop where
  vertical : Json.member props "direction" = .string "vertical" → distributionAxis props = .ok .y
  horizontal :
    Json.member props "direction" = .string "horizontal" → distributionAxis props = .ok .x
  dropped : Json.member props "direction" ≠ .string "vertical" →
    (Json.member props "axis").isVoid = true →
      (Json.member props "direction").isVoid = true ∨
        axisNamed (Json.member props "direction") = .ok .x

theorem keepsDirection_iff :
    KeepsDirection props ↔
      ∀ axis, distributionAxis (distributeProps props) = .ok axis ↔
        distributionAxis props = .ok axis := by
  by_cases isVertical : Json.member props "direction" = .string "vertical"
  · rw [distributionAxis_of_vertical isVertical]
    constructor
    · intro keeps axis
      rw [keeps.vertical isVertical]
    · intro same
      refine ⟨fun _ => (same .y).mp rfl, ?_, fun other => absurd isVertical other⟩
      rw [isVertical]
      exact fun horizontal => absurd (Json.string.inj horizontal) (by decide)
  by_cases isHorizontal : Json.member props "direction" = .string "horizontal"
  · rw [distributionAxis_of_horizontal isHorizontal]
    constructor
    · intro keeps axis
      rw [keeps.horizontal isHorizontal]
    · intro same
      refine ⟨fun vertical => absurd vertical isVertical, fun _ => (same .x).mp rfl, ?_⟩
      rw [isHorizontal]
      exact fun _ _ => .inr rfl
  -- The direction is dropped, so a difference is left only where nothing stands before it.
  rw [distributionAxis_of_other isVertical isHorizontal, distributionAxis]
  cases void : (Json.member props "axis").isVoid with
  | true =>
      rw [Json.orElse_of_isVoid void, Json.orElse_of_isVoid void]
      constructor
      · intro keeps axis
        rcases keeps.dropped isVertical void with none | first
        · rw [Json.orElse_of_isVoid none]
        · rw [orElse_of_axisNamed first, first]
          rfl
      · intro same
        refine ⟨fun vertical => absurd vertical isVertical,
          fun horizontal => absurd horizontal isHorizontal, fun _ _ => ?_⟩
        cases none : (Json.member props "direction").isVoid with
        | true => exact .inl rfl
        | false =>
            have first := (same .x).mp rfl
            rw [Json.orElse_of_not_isVoid none] at first
            exact .inr first
  | false =>
      rw [Json.orElse_of_not_isVoid void, Json.orElse_of_not_isVoid void,
        Json.orElse_of_not_isVoid void]
      refine iff_of_true ?_ fun _ => Iff.rfl
      refine ⟨fun vertical => absurd vertical isVertical,
        fun horizontal => absurd horizontal isHorizontal, fun _ voidToo => ?_⟩
      rw [void] at voidToo
      cases voidToo

theorem SameBesideName.distributionAxis_eq {others : Entries Json}
    (same : SameBesideName props others) : distributionAxis props = distributionAxis others := by
  rw [distributionAxis, same.member (by decide), same.member (by decide)]
  rfl

theorem KeepsDirection.congr {others : Entries Json} (same : SameBesideName props others)
    (keeps : KeepsDirection props) : KeepsDirection others := by
  obtain ⟨vertical, horizontal, dropped⟩ := keeps
  rw [same.member (by decide), same.distributionAxis_eq] at vertical horizontal
  rw [same.member (by decide), same.member (by decide)] at dropped
  exact ⟨vertical, horizontal, dropped⟩

theorem member_spacing_distributeProps (props : Entries Json) :
    Json.member (distributeProps props) "spacing" = Json.member props "spacing" := by
  unfold distributeProps
  split
  · rw [Json.member_insert_of_ne (by decide), Json.member_erase_of_ne (by decide)]
  · rw [Json.member_insert_of_ne (by decide), Json.member_erase_of_ne (by decide)]
  · rw [Json.member_erase_of_ne (by decide)]

/-- With one spacing the same shapes are declared exactly if the spacing is refused or the axis is
the same. -/
theorem forall_declares_distribute_iff {others : Entries Json}
    (spacing : Json.member props "spacing" = Json.member others "spacing") :
    (∀ shape, Tree.Declares "Distribute" props shape ↔ Tree.Declares "Distribute" others shape) ↔
      (∃ error, nonNegative others "spacing" = .error error) ∨
        ∀ axis, distributionAxis props = .ok axis ↔ distributionAxis others = .ok axis := by
  simp only [Tree.declares_distribute_iff, nonNegative_congr spacing]
  cases read : nonNegative others "spacing" with
  | error error => simp
  | ok value =>
      constructor
      · intro alike
        right
        intro axis
        simpa using alike (.distribute axis value)
      · rintro (⟨error, refused⟩ | alike) shape
        · cases refused
        · simp [alike]

/-- A distribute node is read alike with and without the sketch exactly if its spacing is refused
or the sketch loses no direction. -/
theorem distribute_read_alike_iff (unnamed : Json.member props "name" = .null)
    (counter : Counter) :
    (distribute props [] counter).1.ReadAlike (plain "Distribute" props) ↔
      (∃ error, nonNegative props "spacing" = .error error) ∨ KeepsDirection props := by
  have same := SameBesideName.erase_name props
  have spacing : Json.member (distributeProps (Entries.erase "name" props)) "spacing" =
      Json.member props "spacing" := by
    rw [member_spacing_distributeProps, same.member (by decide)]
  have keeps : KeepsDirection (Entries.erase "name" props) ↔ KeepsDirection props :=
    ⟨.congr same, .congr same.symm⟩
  rw [distribute, named_of_unnamed unnamed]
  calc
    Json.ReadAlike (branch "Distribute" _ (distributeProps (Entries.erase "name" props)) []) _
        ↔ ∀ shape, Tree.Declares "Distribute" (distributeProps (Entries.erase "name" props)) shape ↔
            Tree.Declares "Distribute" props shape :=
          (isLeafOf_branch (by decide) _ _).readAlike_iff (isLeafOf_plain (by decide) props)
    _ ↔ _ := forall_declares_distribute_iff spacing
    _ ↔ _ := by rw [← keeps, keepsDirection_iff, same.distributionAxis_eq]

/-- A column of entries whose direction is spelled out. -/
def spelledColumn : Entries Json := [("direction", .string "vertical"), ("spacing", .int 60)]

theorem distribute_read_alike_spelledColumn :
    Json.member spelledColumn "name" = .null ∧
      (distribute spelledColumn [] 0).1.ReadAlike (plain "Distribute" spelledColumn) := by
  have keeps : KeepsDirection spelledColumn :=
    ⟨fun _ => rfl, fun horizontal => absurd (Json.string.inj horizontal) (by decide),
      fun other => absurd rfl other⟩
  exact ⟨rfl, (distribute_read_alike_iff rfl 0).mpr (.inr keeps)⟩

/-- A row of entries with a direction across it. -/
def crossedRow : Entries Json := [("axis", .string "x"), ("direction", .string "vertical")]

/-- The axis is the one that is given, and in the sketch the other one. -/
theorem crossedRow_read_apart :
    Json.member crossedRow "name" = .null ∧
      (plain "Distribute" crossedRow).ReadAs (.distribute .x (.zero false)) ∧
      (distribute crossedRow [] 0).1.ReadAs (.distribute .y (.zero false)) ∧
      ¬ (distribute crossedRow [] 0).1.ReadAlike (plain "Distribute" crossedRow) := by
  have given : (plain "Distribute" crossedRow).ReadAs (.distribute .x (.zero false)) :=
    (isLeafOf_plain (by decide) crossedRow).readAs_iff.mpr rfl
  have sketched : (distribute crossedRow [] 0).1.ReadAs (.distribute .y (.zero false)) :=
    (isLeafOf_branch (by decide) "dist1" (distributeProps crossedRow)).readAs_iff.mpr rfl
  refine ⟨rfl, given, sketched, ?_⟩
  rw [sketched.readAlike_iff]
  intro givenToo
  cases given.unique givenToo

end Distribute

/-! ## Letters -/

section Align

open Property

theorem forall_declares_align_iff {others : Entries Json} :
    (∀ shape, Tree.Declares "Align" props shape ↔ Tree.Declares "Align" others shape) ↔
      ∀ axis alignment, axisAndAlignment props = .ok (axis, alignment) ↔
        axisAndAlignment others = .ok (axis, alignment) := by
  simp only [Tree.declares_align_iff]
  constructor
  · intro alike axis alignment
    simpa using alike (.align axis alignment)
  · intro alike shape
    simp [alike]

/-- The sketch takes a letter for the axis off the alignment and leaves a stem. -/
structure TakesOff (props : Entries Json) (letter : Axis) (stem : String) : Prop where
  withoutAxis : Entries.contains props "axis" = false
  lettered : ∃ text, Json.member props "alignment" = .string text ∧
    splitAxis text = some (letter, stem)

namespace TakesOff

variable {letter axis : Axis} {stem : String} {alignment : Alignment}

theorem alignProps_eq (takes : TakesOff props letter stem) :
    alignProps props = Entries.insert "alignment" (.string stem)
      (Entries.insert "axis" (.string letter.name) props) := by
  obtain ⟨withoutAxis, text, isText, split⟩ := takes
  simp only [alignProps, withoutAxis, isText, split]
  rfl

/-- In the sketch the letter tells the axis, and the stem counts, or the type if there is none. -/
theorem axisAndAlignment_alignProps_eq_ok_iff (takes : TakesOff props letter stem) :
    axisAndAlignment (alignProps props) = .ok (axis, alignment) ↔
      axis = letter ∧
        Aligns letter ((Json.string stem).orElse (Json.member props "type")) alignment := by
  have first : axisValue (alignProps props) = .string letter.name := by
    rw [axisValue, takes.alignProps_eq, Json.member_insert_of_ne (by decide),
      Json.member_insert_self]
    exact orElse_of_axisNamed (axisNamed_name letter) _
  have second : alignmentValue (alignProps props) =
      (Json.string stem).orElse (Json.member props "type") := by
    rw [alignmentValue, takes.alignProps_eq, Json.member_insert_self,
      Json.member_insert_of_ne (by decide), Json.member_insert_of_ne (by decide)]
  rw [Property.axisAndAlignment_eq_ok_iff, first, second,
    axisSource_of_axisNamed (axisNamed_name letter), axisNamed_name, Except.ok.injEq]
  constructor
  · rintro ⟨rfl, aligns⟩
    exact ⟨rfl, aligns⟩
  · rintro ⟨rfl, aligns⟩
    exact ⟨rfl, aligns⟩

/-- Without the sketch a direction comes before the letter, and only the stem counts. -/
theorem axisAndAlignment_eq_ok_iff (takes : TakesOff props letter stem) :
    axisAndAlignment props = .ok (axis, alignment) ↔
      axis = letter ∧
        ((Json.member props "direction").isNull = true ∨
          axisNamed (Json.member props "direction") = .ok letter) ∧
        Entries.find? (alignmentNames letter) stem = some alignment := by
  obtain ⟨withoutAxis, text, isText, split⟩ := takes
  have first : axisValue props = Json.member props "direction" := by
    have absent : Json.member props "axis" = .null := by
      rw [Entries.contains_eq_isSome_find?, Option.isSome_eq_false_iff,
        Option.isNone_iff_eq_none] at withoutAxis
      rw [Json.member, withoutAxis, Option.getD_none]
    rw [axisValue, absent, Json.orElse_null]
  have second : alignmentValue props = .string text := by
    rw [alignmentValue, isText, orElse_of_splitAxis split]
  rw [Property.axisAndAlignment_eq_ok_iff, first, second, axisSource_of_lettered split,
    Aligns.string_iff_of_lettered split]
  cases none : (Json.member props "direction").isNull with
  | true =>
      rw [if_pos rfl, axisNamed_name, Except.ok.injEq]
      constructor
      · rintro ⟨-, rfl, found⟩
        exact ⟨rfl, .inl rfl, found⟩
      · rintro ⟨rfl, -, found⟩
        exact ⟨rfl, rfl, found⟩
  | false =>
      rw [if_neg Bool.false_ne_true]
      constructor
      · rintro ⟨named, rfl, found⟩
        exact ⟨rfl, .inr named, found⟩
      · rintro ⟨rfl, named, found⟩
        exact ⟨named.resolve_left Bool.false_ne_true, rfl, found⟩

theorem unique {other : Axis} {rest : String} (takes : TakesOff props letter stem)
    (again : TakesOff props other rest) : letter = other ∧ stem = rest := by
  obtain ⟨-, text, isText, split⟩ := takes
  obtain ⟨-, _, isTextToo, splitToo⟩ := again
  rw [isText] at isTextToo
  cases isTextToo
  rw [split] at splitToo
  cases splitToo
  exact ⟨rfl, rfl⟩

theorem congr {others : Entries Json} (same : SameBesideName props others)
    (takes : TakesOff props letter stem) : TakesOff others letter stem := by
  obtain ⟨withoutAxis, lettered⟩ := takes
  rw [same.contains (by decide)] at withoutAxis
  rw [same.member (by decide)] at lettered
  exact ⟨withoutAxis, lettered⟩

end TakesOff

theorem alignProps_eq_self (none : ¬ ∃ letter stem, TakesOff props letter stem) :
    alignProps props = props := by
  unfold alignProps
  split
  · rfl
  · next withoutAxis =>
      split
      · next text isText =>
          split
          · next letter stem split =>
              have takes : TakesOff props letter stem :=
                ⟨Bool.eq_false_iff.mpr withoutAxis, text, isText, split⟩
              exact absurd ⟨letter, stem, takes⟩ none
          · rfl
      · rfl

/-- Nothing is lost with a letter that the sketch takes off: what it leaves is no alignment, or the
stem is one by itself and no direction is against the letter. -/
def KeepsLetter (props : Entries Json) : Prop :=
  ∀ letter stem, TakesOff props letter stem → ∀ alignment,
    Aligns letter ((Json.string stem).orElse (Json.member props "type")) alignment →
      ((Json.member props "direction").isNull = true ∨
        axisNamed (Json.member props "direction") = .ok letter) ∧
      Entries.find? (alignmentNames letter) stem = some alignment

theorem keepsLetter_iff :
    KeepsLetter props ↔
      ∀ axis alignment, axisAndAlignment (alignProps props) = .ok (axis, alignment) ↔
        axisAndAlignment props = .ok (axis, alignment) := by
  by_cases some : ∃ letter stem, TakesOff props letter stem
  · obtain ⟨letter, stem, takes⟩ := some
    simp only [takes.axisAndAlignment_alignProps_eq_ok_iff, takes.axisAndAlignment_eq_ok_iff]
    constructor
    · intro keeps axis alignment
      apply and_congr_right
      rintro rfl
      -- What is read without the sketch is read with it too, since a name is its own stem.
      refine ⟨keeps axis stem takes alignment, ?_⟩
      rintro ⟨-, found⟩
      rw [orElse_of_find?_alignmentNames found]
      exact .named found
    · intro alike other rest again alignment aligns
      obtain ⟨rfl, rfl⟩ := takes.unique again
      exact ((alike letter alignment).mp ⟨rfl, aligns⟩).2
  · rw [alignProps_eq_self some]
    refine iff_of_true ?_ fun _ _ => Iff.rfl
    exact fun letter stem takes => absurd ⟨letter, stem, takes⟩ some

theorem KeepsLetter.congr {others : Entries Json} (same : SameBesideName props others)
    (keeps : KeepsLetter props) : KeepsLetter others := by
  intro letter stem takes
  rw [← same.member (by decide), ← same.member (by decide)]
  exact keeps letter stem (takes.congr same.symm)

theorem SameBesideName.axisAndAlignment_eq {others : Entries Json}
    (same : SameBesideName props others) : axisAndAlignment props = axisAndAlignment others := by
  rw [axisAndAlignment, same.member (by decide), same.member (by decide),
    same.member (by decide), same.member (by decide)]
  rfl

/-- An align node is read alike with and without the sketch exactly if the sketch loses nothing with
a letter. -/
theorem align_read_alike_iff (unnamed : Json.member props "name" = .null) (counter : Counter) :
    (align props [] counter).1.ReadAlike (plain "Align" props) ↔ KeepsLetter props := by
  have same := SameBesideName.erase_name props
  have keeps : KeepsLetter (Entries.erase "name" props) ↔ KeepsLetter props :=
    ⟨.congr same, .congr same.symm⟩
  rw [align, named_of_unnamed unnamed]
  calc
    Json.ReadAlike (branch "Align" _ (alignProps (Entries.erase "name" props)) []) _
        ↔ ∀ shape, Tree.Declares "Align" (alignProps (Entries.erase "name" props)) shape ↔
            Tree.Declares "Align" props shape :=
          (isLeafOf_branch (by decide) _ _).readAlike_iff (isLeafOf_plain (by decide) props)
    _ ↔ _ := forall_declares_align_iff
    _ ↔ _ := by rw [← keeps, keepsLetter_iff, same.axisAndAlignment_eq]

/-- Entries that are centered along the second axis. -/
def letteredColumn : Entries Json := [("alignment", .string "centerY")]

theorem align_read_alike_letteredColumn :
    Json.member letteredColumn "name" = .null ∧
      (align letteredColumn [] 0).1.ReadAlike (plain "Align" letteredColumn) := by
  have keeps : KeepsLetter letteredColumn := by
    rintro letter stem ⟨-, text, isText, split⟩ alignment aligns
    cases isText
    have letterY : splitAxis "centerY" = some (.y, "center") := by decide
    cases letterY.symm.trans split
    exact ⟨.inl rfl, (Aligns.string_iff_of_unlettered (by decide)).mp aligns⟩
  exact ⟨rfl, (align_read_alike_iff rfl 0).mpr keeps⟩

/-- Entries with a direction across the letter of their alignment. -/
def crossedCenter : Entries Json :=
  [("alignment", .string "centerX"), ("direction", .string "vertical")]

/-- No alignment is named so along the direction, but the sketch drops the direction. -/
theorem crossedCenter_read_apart :
    Json.member crossedCenter "name" = .null ∧
      (∃ error, Tree.ofJson? (plain "Align" crossedCenter) = .error error ∧ error.OfSchema) ∧
      (align crossedCenter [] 0).1.ReadAs (.align .x .center) ∧
      ¬ (align crossedCenter [] 0).1.ReadAlike (plain "Align" crossedCenter) := by
  have refused : (plain "Align" crossedCenter).Refused := by
    apply (isLeafOf_plain (by decide) crossedCenter).refused_iff.mpr
    rintro shape ⟨⟩
  have shown : (plain "Align" crossedCenter).Shown := by
    simp [plain, crossedCenter, Json.shown_object_iff, Json.shown_string]
  have sketched : (align crossedCenter [] 0).1.ReadAs (.align .x .center) :=
    (isLeafOf_branch (by decide) "align1" (alignProps crossedCenter)).readAs_iff.mpr rfl
  refine ⟨rfl, refused.ofSchema shown, sketched, ?_⟩
  rw [sketched.readAlike_iff]
  exact fun given => given.not_refused refused

end Align

end Sketch

end SceneLayout
