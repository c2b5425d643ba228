import SceneLayout.Proofs.CanonicalRounding
import SceneLayout.Tree.Declared

/-!
# What properties are read as

Properties that are read give numbers that are finite doubles, and those of them that are
lengths or gaps are not negative. Conversely properties of the right kinds are read: a table has
the kind of each property that a type looks at.

Main statements: `faithfulTo_of_ofProps`, `exists_ofProps_eq_ok`.
-/

namespace SceneLayout

/-- A computation that succeeds has succeeded in its first step. -/
theorem exists_of_bind_eq_ok {ε α β : Type} {first : Except ε α} {next : α → Except ε β}
    {result : β} (h : first >>= next = .ok result) :
    ∃ value, first = .ok value ∧ next value = .ok result := by
  cases first with
  | error reason => cases h
  | ok value => exact ⟨value, rfl, h⟩

/-- A computation succeeds if its first step does and any other step after it. -/
theorem exists_bind_eq_ok {ε α β : Type} {first : Except ε α} {next : α → Except ε β}
    (begun : ∃ value, first = .ok value) (ended : ∀ value, ∃ result, next value = .ok result) :
    ∃ result, first >>= next = .ok result := by
  obtain ⟨value, rfl⟩ := begun
  exact ended value

/-! ## Sound readers -/

/-- All numbers among the properties are doubles. -/
def DoublesIn (props : Entries Json) : Prop :=
  ∀ name x, Json.member props name = .float x → x.Canonical

/-- The number is finite, and a double if those among the properties are. -/
structure ReadFrom (props : Entries Json) (x : Binary64) : Prop where
  finite : x.isFinite = true
  double : DoublesIn props → x.Canonical

namespace Property

variable {props : Entries Json} {name : String}

/-- A property is read by its value. -/
theorem nonNegative_congr {others : Entries Json}
    (same : Json.member props name = Json.member others name) :
    nonNegative props name = nonNegative others name := by
  rw [nonNegative, number, optionalNumber, same]
  rfl

theorem readFrom_zero : ReadFrom props (.zero false) :=
  ⟨rfl, fun _ => Binary64.canonical_zero false⟩

theorem readFrom_of_optionalNumber {found : Option Binary64}
    (h : optionalNumber props name = .ok found) : ∀ x ∈ found.toList, ReadFrom props x := by
  intro x member
  rw [Option.mem_toList] at member
  subst member
  unfold optionalNumber at h
  split at h
  · cases h
  · next n isInt =>
      dsimp only at h
      split at h
      · next finite =>
          cases h
          exact ⟨finite, fun _ => Binary64.canonical_ofInt n⟩
      · cases h
  · next isFloat =>
      split at h
      · next finite =>
          cases h
          exact ⟨finite, fun doubles => doubles name _ isFloat⟩
      · cases h
  · cases h

theorem readFrom_of_number {x : Binary64} (h : number props name = .ok x) : ReadFrom props x := by
  obtain ⟨found, read, same⟩ := exists_of_bind_eq_ok h
  cases same
  cases found with
  | none => exact readFrom_zero
  | some x => exact readFrom_of_optionalNumber read x (List.mem_singleton_self x)

theorem readFrom_of_nonNegative {x : Binary64} (h : nonNegative props name = .ok x) :
    ReadFrom props x ∧ x.isNegative = false := by
  obtain ⟨value, read, same⟩ := exists_of_bind_eq_ok h
  split at same
  · cases same
  · next sign =>
      cases same
      exact ⟨readFrom_of_number read, Bool.eq_false_iff.mpr sign⟩

end Property

theorem Style.readFrom_of_ofProps {props : Entries Json} {style : Style Binary64}
    (h : Style.ofProps props = .ok style) : ∀ x ∈ style.strokeWidth.toList, ReadFrom props x := by
  obtain ⟨fill, -, h⟩ := exists_of_bind_eq_ok h
  obtain ⟨stroke, -, h⟩ := exists_of_bind_eq_ok h
  obtain ⟨width, read, h⟩ := exists_of_bind_eq_ok h
  cases h
  exact Property.readFrom_of_optionalNumber read

namespace Shape

variable {α : Type}

/-- All numbers of a shape. -/
def numbers : Shape α → List α
  | group | container _ | align .. => []
  | rect x y width height style => [x, y, width, height] ++ style.strokeWidth.toList
  | circle r x y style => [r, x, y] ++ style.strokeWidth.toList
  | text _ x y width height style =>
      [x, y] ++ width.toList ++ height.toList ++ style.strokeWidth.toList
  | arrow style => style.strokeWidth.toList
  | background padding style => padding :: style.strokeWidth.toList
  | stack _ spacing _ | distribute _ spacing => [spacing]

/-- The numbers of a shape that may not be negative. -/
def unsigned : Shape α → List α
  | circle r .. => [r]
  | background padding _ => [padding]
  | distribute _ spacing => [spacing]
  | _ => []

/-- The types that have a shape of their own. -/
def recognizedTypes : List String :=
  ["Group", "Rect", "Circle", "Text", "Arrow", "Background", "StackV", "StackH", "Align",
    "Distribute"]

/-- A recognized type has its own shape, and any other type is the name of a container. -/
def IsOfType (type : String) : Shape α → Prop
  | container name => name = some type ∧ type ∉ recognizedTypes
  | shape => shape.typeName = some type

/-- The shape is of its type, its numbers are finite doubles, and its lengths and gaps are not
negative. -/
structure FaithfulTo (type : String) (props : Entries Json) (shape : Shape Binary64) : Prop where
  ofType : shape.IsOfType type
  numbers : ∀ x ∈ shape.numbers, ReadFrom props x
  unsigned : ∀ x ∈ shape.unsigned, x.isNegative = false

variable {type : String} {props : Entries Json} {shape : Shape Binary64}

theorem FaithfulTo.of_unsigned_nil (ofType : shape.IsOfType type)
    (numbers : ∀ x ∈ shape.numbers, ReadFrom props x) (none : shape.unsigned = []) :
    shape.FaithfulTo type props := by
  refine ⟨ofType, numbers, ?_⟩
  rw [none]
  exact List.forall_mem_nil _

theorem FaithfulTo.of_unsigned_singleton {x : Binary64} (ofType : shape.IsOfType type)
    (numbers : ∀ x ∈ shape.numbers, ReadFrom props x) (one : shape.unsigned = [x])
    (sign : x.isNegative = false) : shape.FaithfulTo type props := by
  refine ⟨ofType, numbers, ?_⟩
  rw [one]
  exact List.forall_mem_singleton.mpr sign

theorem faithfulTo_of_stackOfProps {axis : Axis} (h : ofProps.stackOfProps props axis = .ok shape)
    (ofType : ∀ spacing alignment,
      (stack axis spacing alignment : Shape Binary64).IsOfType type) :
    shape.FaithfulTo type props := by
  obtain ⟨alignment, -, h⟩ := exists_of_bind_eq_ok h
  obtain ⟨spacing, read, h⟩ := exists_of_bind_eq_ok h
  cases h
  exact .of_unsigned_nil (ofType spacing alignment)
    (List.forall_mem_singleton.mpr (Property.readFrom_of_number read)) rfl

theorem faithfulTo_of_ofProps (h : ofProps (some type) props = .ok shape) :
    shape.FaithfulTo type props := by
  unfold ofProps at h
  split at h
  · next isGroup =>
      cases isGroup
      cases h
      exact .of_unsigned_nil rfl (List.forall_mem_nil _) rfl
  · next isRect =>
      cases isRect
      obtain ⟨x, readX, h⟩ := exists_of_bind_eq_ok h
      obtain ⟨y, readY, h⟩ := exists_of_bind_eq_ok h
      obtain ⟨width, readWidth, h⟩ := exists_of_bind_eq_ok h
      obtain ⟨height, readHeight, h⟩ := exists_of_bind_eq_ok h
      obtain ⟨style, readStyle, h⟩ := exists_of_bind_eq_ok h
      cases h
      refine .of_unsigned_nil rfl ?_ rfl
      simp only [numbers, List.forall_mem_append, List.forall_mem_cons]
      exact ⟨⟨Property.readFrom_of_number readX, Property.readFrom_of_number readY,
        Property.readFrom_of_number readWidth, Property.readFrom_of_number readHeight,
        List.forall_mem_nil _⟩, Style.readFrom_of_ofProps readStyle⟩
  · next isCircle =>
      cases isCircle
      obtain ⟨r, readR, h⟩ := exists_of_bind_eq_ok h
      obtain ⟨x, readX, h⟩ := exists_of_bind_eq_ok h
      obtain ⟨y, readY, h⟩ := exists_of_bind_eq_ok h
      obtain ⟨style, readStyle, h⟩ := exists_of_bind_eq_ok h
      cases h
      obtain ⟨fromR, sign⟩ := Property.readFrom_of_nonNegative readR
      refine .of_unsigned_singleton rfl ?_ rfl sign
      simp only [numbers, List.forall_mem_append, List.forall_mem_cons]
      exact ⟨⟨fromR, Property.readFrom_of_number readX, Property.readFrom_of_number readY,
        List.forall_mem_nil _⟩, Style.readFrom_of_ofProps readStyle⟩
  · next isText =>
      cases isText
      obtain ⟨content, -, h⟩ := exists_of_bind_eq_ok h
      obtain ⟨x, readX, h⟩ := exists_of_bind_eq_ok h
      obtain ⟨y, readY, h⟩ := exists_of_bind_eq_ok h
      obtain ⟨width, readWidth, h⟩ := exists_of_bind_eq_ok h
      obtain ⟨height, readHeight, h⟩ := exists_of_bind_eq_ok h
      obtain ⟨style, readStyle, h⟩ := exists_of_bind_eq_ok h
      cases h
      refine .of_unsigned_nil rfl ?_ rfl
      simp only [numbers, List.forall_mem_append, List.forall_mem_cons]
      exact ⟨⟨⟨⟨Property.readFrom_of_number readX, Property.readFrom_of_number readY,
        List.forall_mem_nil _⟩, Property.readFrom_of_optionalNumber readWidth⟩,
        Property.readFrom_of_optionalNumber readHeight⟩, Style.readFrom_of_ofProps readStyle⟩
  · next isArrow =>
      cases isArrow
      obtain ⟨style, readStyle, h⟩ := exists_of_bind_eq_ok h
      cases h
      exact .of_unsigned_nil rfl (Style.readFrom_of_ofProps readStyle) rfl
  · next isBackground =>
      cases isBackground
      obtain ⟨padding, readPadding, h⟩ := exists_of_bind_eq_ok h
      obtain ⟨style, readStyle, h⟩ := exists_of_bind_eq_ok h
      cases h
      obtain ⟨fromPadding, sign⟩ := Property.readFrom_of_nonNegative readPadding
      refine .of_unsigned_singleton rfl ?_ rfl sign
      exact List.forall_mem_cons.mpr ⟨fromPadding, Style.readFrom_of_ofProps readStyle⟩
  · next isColumn =>
      cases isColumn
      exact faithfulTo_of_stackOfProps h fun _ _ => rfl
  · next isRow =>
      cases isRow
      exact faithfulTo_of_stackOfProps h fun _ _ => rfl
  · next isAlign =>
      cases isAlign
      obtain ⟨⟨axis, alignment⟩, -, h⟩ := exists_of_bind_eq_ok h
      cases h
      exact .of_unsigned_nil rfl (List.forall_mem_nil _) rfl
  · next isDistribute =>
      cases isDistribute
      obtain ⟨axis, -, h⟩ := exists_of_bind_eq_ok h
      obtain ⟨spacing, readSpacing, h⟩ := exists_of_bind_eq_ok h
      cases h
      obtain ⟨fromSpacing, sign⟩ := Property.readFrom_of_nonNegative readSpacing
      exact .of_unsigned_singleton rfl (List.forall_mem_singleton.mpr fromSpacing) rfl sign
  · next notGroup notRect notCircle notText notArrow notBackground notColumn notRow notAlign
        notDistribute =>
      cases h
      refine .of_unsigned_nil ⟨rfl, ?_⟩ (List.forall_mem_nil _) rfl
      simp only [Option.some.injEq] at *
      simp only [recognizedTypes, List.mem_cons, List.not_mem_nil, or_false, not_or]
      exact ⟨notGroup, notRect, notCircle, notText, notArrow, notBackground, notColumn, notRow,
        notAlign, notDistribute⟩

end Shape

/-! ## Properties that are read -/

/-- What a property has to be. -/
inductive PropertyKind where
  | text
  | number
  /-- A number that is not negative. -/
  | unsigned

/-- The value is of the kind. Null, as which an absent value counts, is of every kind; a number has
to be finite as a double. -/
def PropertyKind.Accepts : PropertyKind → Json → Prop
  | _, .null => True
  | text, .string _ => True
  | number, .int n => (Binary64.ofInt n).isFinite = true
  | number, .float x => x.isFinite = true
  | unsigned, .int n => (Binary64.ofInt n).isFinite = true ∧ 0 ≤ n
  | unsigned, .float x => x.isFinite = true ∧ x.isNegative = false
  | _, _ => False

namespace Property

variable {props : Entries Json} {name : String}

theorem exists_optionalNumber (h : PropertyKind.number.Accepts (Json.member props name)) :
    ∃ found, optionalNumber props name = .ok found := by
  unfold optionalNumber
  generalize Json.member props name = value at h
  cases value with
  | null => exact ⟨none, rfl⟩
  | int n => exact ⟨some (Binary64.ofInt n), if_pos h⟩
  | float x => exact ⟨some x, if_pos h⟩
  | _ => cases h

theorem exists_number (h : PropertyKind.number.Accepts (Json.member props name)) :
    ∃ x, number props name = .ok x := by
  apply exists_bind_eq_ok (exists_optionalNumber h)
  intro found
  exact ⟨_, rfl⟩

theorem exists_nonNegative (h : PropertyKind.unsigned.Accepts (Json.member props name)) :
    ∃ x, nonNegative props name = .ok x := by
  obtain ⟨x, read, sign⟩ : ∃ x, number props name = .ok x ∧ x.isNegative = false := by
    unfold number optionalNumber
    generalize Json.member props name = value at h
    cases value with
    | null => exact ⟨_, rfl, rfl⟩
    | int n =>
        dsimp only
        rw [if_pos h.1]
        exact ⟨_, rfl, Binary64.isNegative_ofInt h.2⟩
    | float x =>
        dsimp only
        rw [if_pos h.1]
        exact ⟨_, rfl, h.2⟩
    | _ => cases h
  refine ⟨x, ?_⟩
  rw [nonNegative, read]
  exact if_neg (Bool.eq_false_iff.mp sign)

theorem exists_optionalText (h : PropertyKind.text.Accepts (Json.member props name)) :
    ∃ found, optionalText props name = .ok found := by
  unfold optionalText
  generalize Json.member props name = value at h
  cases value with
  | null => exact ⟨none, rfl⟩
  | string text => exact ⟨some text, rfl⟩
  | _ => cases h

end Property

/-- The properties of a paint. Of the two names of the width the first one counts if it is
present. -/
def Style.properties (props : Entries Json) : List (String × PropertyKind) :=
  [("fill", .text), ("stroke", .text),
    (if Entries.contains props "stroke-width" then "stroke-width" else "strokeWidth", .number)]

namespace Shape

/-- The properties that a type looks at, but for those that name an axis or an alignment. -/
def properties (type : String) (props : Entries Json) : List (String × PropertyKind) :=
  match type with
  | "Rect" =>
      [("x", .number), ("y", .number), ("width", .number), ("height", .number)] ++
        Style.properties props
  | "Circle" => [("r", .unsigned), ("x", .number), ("y", .number)] ++ Style.properties props
  | "Text" =>
      [("text", .text), ("x", .number), ("y", .number), ("width", .number), ("height", .number)] ++
        Style.properties props
  | "Arrow" => Style.properties props
  | "Background" => ("padding", .unsigned) :: Style.properties props
  | "StackV" | "StackH" => [("spacing", .number)]
  | "Distribute" => [("spacing", .unsigned)]
  | _ => []

/-- The properties are of the right kinds, and none of them names an axis or an alignment where the
type looks for one. -/
structure Readable (type : String) (props : Entries Json) : Prop where
  kinds : ∀ entry ∈ properties type props, entry.2.Accepts (Json.member props entry.1)
  plain : type ∈ ["StackV", "StackH", "Align", "Distribute"] →
    ∀ name ∈ ["axis", "direction", "alignment", "type"], Json.member props name = .null

end Shape

variable {type : String} {props : Entries Json}

theorem Style.exists_ofProps
    (h : ∀ entry ∈ Style.properties props, entry.2.Accepts (Json.member props entry.1)) :
    ∃ style, Style.ofProps props = .ok style := by
  simp only [Style.properties, List.forall_mem_cons] at h
  obtain ⟨fill, stroke, width, -⟩ := h
  apply exists_bind_eq_ok (Property.exists_optionalText fill)
  intro fill
  apply exists_bind_eq_ok (Property.exists_optionalText stroke)
  intro stroke
  apply exists_bind_eq_ok (Property.exists_optionalNumber width)
  intro width
  exact ⟨_, rfl⟩

namespace Shape

theorem exists_stackOfProps (axis : Axis)
    (spacing : PropertyKind.number.Accepts (Json.member props "spacing"))
    (plain : Json.member props "alignment" = .null) :
    ∃ shape, ofProps.stackOfProps props axis = .ok shape := by
  obtain ⟨spacing, read⟩ := Property.exists_number spacing
  refine ⟨.stack axis spacing .start, ?_⟩
  rw [ofProps.stackOfProps, Property.crossAlignment, plain, read]
  rfl

/-- Properties of the right kinds declare a shape. -/
theorem exists_ofProps_eq_ok (h : Readable type props) :
    ∃ shape, ofProps (some type) props = .ok shape := by
  obtain ⟨kinds, plain⟩ := h
  unfold ofProps
  split
  · exact ⟨_, rfl⟩
  · next isRect =>
      cases isRect
      simp only [properties, List.forall_mem_append, List.forall_mem_cons] at kinds
      obtain ⟨⟨x, y, width, height, -⟩, style⟩ := kinds
      apply exists_bind_eq_ok (Property.exists_number x)
      intro x
      apply exists_bind_eq_ok (Property.exists_number y)
      intro y
      apply exists_bind_eq_ok (Property.exists_number width)
      intro width
      apply exists_bind_eq_ok (Property.exists_number height)
      intro height
      apply exists_bind_eq_ok (Style.exists_ofProps style)
      intro style
      exact ⟨_, rfl⟩
  · next isCircle =>
      cases isCircle
      simp only [properties, List.forall_mem_append, List.forall_mem_cons] at kinds
      obtain ⟨⟨r, x, y, -⟩, style⟩ := kinds
      apply exists_bind_eq_ok (Property.exists_nonNegative r)
      intro r
      apply exists_bind_eq_ok (Property.exists_number x)
      intro x
      apply exists_bind_eq_ok (Property.exists_number y)
      intro y
      apply exists_bind_eq_ok (Style.exists_ofProps style)
      intro style
      exact ⟨_, rfl⟩
  · next isText =>
      cases isText
      simp only [properties, List.forall_mem_append, List.forall_mem_cons] at kinds
      obtain ⟨⟨content, x, y, width, height, -⟩, style⟩ := kinds
      apply exists_bind_eq_ok (Property.exists_optionalText content)
      intro content
      apply exists_bind_eq_ok (Property.exists_number x)
      intro x
      apply exists_bind_eq_ok (Property.exists_number y)
      intro y
      apply exists_bind_eq_ok (Property.exists_optionalNumber width)
      intro width
      apply exists_bind_eq_ok (Property.exists_optionalNumber height)
      intro height
      apply exists_bind_eq_ok (Style.exists_ofProps style)
      intro style
      exact ⟨_, rfl⟩
  · next isArrow =>
      cases isArrow
      apply exists_bind_eq_ok (Style.exists_ofProps kinds)
      intro style
      exact ⟨_, rfl⟩
  · next isBackground =>
      cases isBackground
      obtain ⟨padding, style⟩ := List.forall_mem_cons.mp kinds
      apply exists_bind_eq_ok (Property.exists_nonNegative padding)
      intro padding
      apply exists_bind_eq_ok (Style.exists_ofProps style)
      intro style
      exact ⟨_, rfl⟩
  · next isColumn =>
      cases isColumn
      exact exists_stackOfProps .y (kinds ("spacing", .number) List.mem_cons_self)
        (plain (by decide) "alignment" (by decide))
  · next isRow =>
      cases isRow
      exact exists_stackOfProps .x (kinds ("spacing", .number) List.mem_cons_self)
        (plain (by decide) "alignment" (by decide))
  · next isAlign =>
      cases isAlign
      have plain := plain (by decide)
      rw [Property.axisAndAlignment, plain "axis" (by decide), plain "direction" (by decide),
        plain "alignment" (by decide), plain "type" (by decide)]
      exact ⟨_, rfl⟩
  · next isDistribute =>
      cases isDistribute
      have plain := plain (by decide)
      obtain ⟨spacing, read⟩ :=
        Property.exists_nonNegative (kinds ("spacing", .unsigned) List.mem_cons_self)
      rw [Property.distributionAxis, plain "axis" (by decide), plain "direction" (by decide), read]
      exact ⟨_, rfl⟩
  · exact ⟨_, rfl⟩

end Shape

end SceneLayout
