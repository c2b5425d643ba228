import SceneLayout.Proofs.PropertyReading

/-!
# Values that can be shown

A value can be shown unless a whole number in it has too many digits. A reader that refuses a
property tells its value if the value can be shown, and looks at nothing but the members of the
properties, so a tree whose properties can be shown is never refused without telling the node.

Main statements: `Property.tells_shape`, `Tree.ofRaw_ne_unshown`.
-/

namespace SceneLayout

namespace Json

/-- The value can be shown. -/
def Shown (value : Json) : Prop :=
  ∃ text, value.display? = some text

variable {items : List Json} {members : Entries Json}

theorem shown_int_iff {n : Int} : (int n).Shown ↔ n.natAbs < 10 ^ mostDigits := by
  rw [Shown, display?, wholeText?]
  split
  · next few => exact iff_of_true ⟨_, rfl⟩ few
  · next many => exact iff_of_false (fun ⟨_, shown⟩ => by cases shown) many

theorem exists_displayItems?_iff :
    (∃ texts, displayItems? items = some texts) ↔ ∀ item ∈ items, item.Shown := by
  induction items with
  | nil => simp [displayItems?]
  | cons item rest ih =>
      rw [List.forall_mem_cons, ← ih, Shown, displayItems?]
      cases item.display? <;> cases displayItems? rest <;> simp

theorem exists_displayMembers?_iff :
    (∃ texts, displayMembers? members = some texts) ↔ ∀ entry ∈ members, entry.2.Shown := by
  induction members with
  | nil => simp [displayMembers?]
  | cons entry rest ih =>
      obtain ⟨key, value⟩ := entry
      rw [List.forall_mem_cons, ← ih, Shown, displayMembers?]
      cases value.display? <;> cases displayMembers? rest <;> simp

theorem shown_array_iff : (array items).Shown ↔ ∀ item ∈ items, item.Shown := by
  rw [← exists_displayItems?_iff, Shown, display?]
  cases displayItems? items <;> simp

theorem shown_object_iff : (object members).Shown ↔ ∀ entry ∈ members, entry.2.Shown := by
  rw [← exists_displayMembers?_iff, Shown, display?]
  cases displayMembers? members <;> simp

theorem shown_null : null.Shown :=
  ⟨_, by rw [display?]⟩

theorem shown_string (text : String) : (string text).Shown :=
  ⟨_, by rw [display?]⟩

/-- The members of a value that can be shown can be shown. -/
theorem Shown.member (shown : (object members).Shown) (key : String) :
    (Json.member members key).Shown := by
  rw [Json.member]
  cases found : Entries.find? members key with
  | none => exact shown_null
  | some value => exact shown_object_iff.mp shown (key, value) (Entries.mem_of_find? found)

end Json

theorem Json.Shown.orElse {first second : Json} (shown : first.Shown) (shownToo : second.Shown) :
    (first.orElse second).Shown := by
  rw [Json.orElse]
  split
  · exact shownToo
  · exact shown

/-! ## Properties -/

namespace Property

variable {α β : Type} {props : Entries Json} {name : String} {value first second : Json}

/-- A reading that fails tells what was refused. -/
def Tells (reading : Except PropertyError α) : Prop :=
  reading ≠ .error .unshown

theorem tells_ok (value : α) : Tells (.ok value) :=
  nofun

theorem Tells.bind {reading : Except PropertyError α} {next : α → Except PropertyError β}
    (told : Tells reading) (after : ∀ value, reading = .ok value → Tells (next value)) :
    Tells (reading >>= next) := by
  cases reading with
  | error error =>
      rintro ⟨⟩
      exact told rfl
  | ok value => exact after value rfl

theorem tells_showing {refusal : String → Refusal} (shown : value.Shown) :
    Tells (.error (.showing value refusal) : Except PropertyError α) := by
  obtain ⟨text, shown⟩ := shown
  rw [PropertyError.showing, shown]
  nofun

theorem tells_optionalNumber (shown : (Json.member props name).Shown) :
    Tells (optionalNumber props name) := by
  unfold optionalNumber
  generalize Json.member props name = value at shown
  cases value with
  | null => exact tells_ok _
  | int n =>
      dsimp only
      split
      · exact tells_ok _
      · nofun
  | float x =>
      dsimp only
      split
      · exact tells_ok _
      · exact tells_showing shown
  | _ => exact tells_showing shown

theorem tells_number (shown : (Json.member props name).Shown) : Tells (number props name) :=
  (tells_optionalNumber shown).bind fun _ _ => tells_ok _

theorem tells_nonNegative (shown : (Json.member props name).Shown) :
    Tells (nonNegative props name) := by
  refine (tells_number shown).bind fun x _ => ?_
  split
  · nofun
  · exact tells_ok _

theorem tells_optionalText (shown : (Json.member props name).Shown) :
    Tells (optionalText props name) := by
  unfold optionalText
  generalize Json.member props name = value at shown
  cases value with
  | null | string text => exact tells_ok _
  | _ => exact tells_showing shown

theorem tells_axisNamed (shown : value.Shown) : Tells (axisNamed value) := by
  unfold axisNamed
  split
  · split
    · exact tells_ok _
    · exact tells_showing shown
  · exact tells_showing shown

theorem tells_alignmentNamed {names : Entries Alignment} (shown : value.Shown) :
    Tells (alignmentNamed names value) := by
  unfold alignmentNamed
  split
  · split
    · exact tells_ok _
    · exact tells_showing shown
  · exact tells_showing shown

theorem tells_withoutAxisLetter (shown : first.Shown) : Tells (withoutAxisLetter first second) := by
  unfold withoutAxisLetter
  split
  · split
    · refine (tells_axisNamed ?_).bind fun _ _ => tells_ok _
      split
      · exact Json.shown_string _
      · exact shown
    · exact tells_ok _
  · exact tells_ok _

/-- A letter that is taken off leaves values that can be shown. -/
theorem shown_of_withoutAxisLetter {values : Json × Json} (shown : first.Shown)
    (shownToo : second.Shown) (read : withoutAxisLetter first second = .ok values) :
    values.1.Shown ∧ values.2.Shown := by
  unfold withoutAxisLetter at read
  split at read
  · split at read
    · obtain ⟨axis, -, same⟩ := exists_of_bind_eq_ok read
      cases same
      constructor
      · dsimp only
        split
        · exact Json.shown_string _
        · exact shown
      · dsimp only
        split
        · exact Json.shown_string _
        · exact shownToo
    · cases read
      exact ⟨shown, shownToo⟩
  · cases read
    exact ⟨shown, shownToo⟩

variable (shown : (Json.object props).Shown)

include shown

theorem tells_axisAndAlignment : Tells (axisAndAlignment props) := by
  have axisShown := (shown.member "axis").orElse (shown.member "direction")
  have alignmentShown := (shown.member "alignment").orElse (shown.member "type")
  refine (tells_withoutAxisLetter axisShown).bind fun values read => ?_
  obtain ⟨axisLeft, alignmentLeft⟩ := shown_of_withoutAxisLetter axisShown alignmentShown read
  refine (tells_axisNamed (axisLeft.orElse (Json.shown_string "x"))).bind fun axis _ => ?_
  dsimp only
  split
  · exact tells_ok _
  · exact (tells_alignmentNamed alignmentLeft).bind fun _ _ => tells_ok _

theorem tells_distributionAxis : Tells (distributionAxis props) :=
  tells_axisNamed
    (((shown.member "axis").orElse (shown.member "direction")).orElse (Json.shown_string "x"))

theorem tells_crossAlignment (axis : Axis) : Tells (crossAlignment axis props) := by
  unfold crossAlignment
  dsimp only
  split
  · exact tells_ok _
  · exact tells_alignmentNamed (shown.member "alignment")

theorem tells_style : Tells (Style.ofProps props) :=
  (tells_optionalText (shown.member "fill")).bind fun _ _ =>
    (tells_optionalText (shown.member "stroke")).bind fun _ _ =>
      (tells_optionalNumber (shown.member _)).bind fun _ _ => tells_ok _

theorem tells_stackOfProps (axis : Axis) : Tells (Shape.ofProps.stackOfProps props axis) :=
  (tells_crossAlignment shown axis).bind fun _ _ =>
    (tells_number (shown.member "spacing")).bind fun _ _ => tells_ok _

/-- Where all properties can be shown a refused one is told. -/
theorem tells_shape (type : Option String) : Tells (Shape.ofProps type props) := by
  unfold Shape.ofProps
  split
  case h_1 => exact tells_ok _
  case h_2 =>
    refine (tells_number (shown.member "x")).bind fun _ _ => ?_
    refine (tells_number (shown.member "y")).bind fun _ _ => ?_
    refine (tells_number (shown.member "width")).bind fun _ _ => ?_
    refine (tells_number (shown.member "height")).bind fun _ _ => ?_
    exact (tells_style shown).bind fun _ _ => tells_ok _
  case h_3 =>
    refine (tells_nonNegative (shown.member "r")).bind fun _ _ => ?_
    refine (tells_number (shown.member "x")).bind fun _ _ => ?_
    refine (tells_number (shown.member "y")).bind fun _ _ => ?_
    exact (tells_style shown).bind fun _ _ => tells_ok _
  case h_4 =>
    refine (tells_optionalText (shown.member "text")).bind fun _ _ => ?_
    refine (tells_number (shown.member "x")).bind fun _ _ => ?_
    refine (tells_number (shown.member "y")).bind fun _ _ => ?_
    refine (tells_optionalNumber (shown.member "width")).bind fun _ _ => ?_
    refine (tells_optionalNumber (shown.member "height")).bind fun _ _ => ?_
    exact (tells_style shown).bind fun _ _ => tells_ok _
  case h_5 => exact (tells_style shown).bind fun _ _ => tells_ok _
  case h_6 =>
    refine (tells_nonNegative (shown.member "padding")).bind fun _ _ => ?_
    exact (tells_style shown).bind fun _ _ => tells_ok _
  case h_7 => exact tells_stackOfProps shown .y
  case h_8 => exact tells_stackOfProps shown .x
  case h_9 => exact (tells_axisAndAlignment shown).bind fun _ _ => tells_ok _
  case h_10 =>
    refine (tells_distributionAxis shown).bind fun _ _ => ?_
    exact (tells_nonNegative (shown.member "spacing")).bind fun _ _ => tells_ok _
  case h_11 => exact tells_ok _

end Property

/-! ## Trees -/

/-- The properties of the node and of what stands below it can be shown. -/
inductive RawNode.Shown : RawNode → Prop where
  | node {type id key target : Option String} {props : Entries Json} {children : List RawNode}
      (shown : (Json.object props).Shown) (below : ∀ child ∈ children, Shown child) :
      Shown ⟨type, id, key, props, children, target⟩

namespace RawNode

theorem shown_objectMember {members : Entries Json} (shown : (Json.object members).Shown)
    (name : String) : (Json.object (objectMember members name)).Shown := by
  have member := shown.member name
  unfold objectMember
  split
  · next found => exact found ▸ member
  · exact Json.shown_object_iff.mpr (List.forall_mem_nil _)

theorem shown_default : (default : RawNode).Shown :=
  .node (Json.shown_object_iff.mpr (List.forall_mem_nil _)) (List.forall_mem_nil _)

mutual

theorem shown_check : ∀ value : Json, value.Shown → (check value).value.Shown
  | .object members => by
      intro shown
      rw [check]
      exact .node (shown_objectMember shown "props")
        (shown_checkChildren members (Json.shown_object_iff.mp shown))
  | .null | .bool _ | .int _ | .float _ | .string _ | .array _ => by
      intro _
      simpa only [check] using shown_default

theorem shown_checkChildren : ∀ members : List (String × Json),
    (∀ entry ∈ members, entry.2.Shown) → ∀ child ∈ (checkChildren members).value, child.Shown
  | [], _ => by
      rw [checkChildren]
      exact List.forall_mem_nil _
  | (key, value) :: rest, shown => by
      obtain ⟨first, later⟩ := List.forall_mem_cons.mp shown
      rw [checkChildren]
      split
      · exact shown_checkList value first
      · exact shown_checkChildren rest later

theorem shown_checkList : ∀ value : Json, value.Shown → ∀ child ∈ (checkList value).value,
    child.Shown
  | .array items => by
      intro shown
      rw [checkList]
      exact shown_checkItems 0 items (Json.shown_array_iff.mp shown)
  | .null | .bool _ | .int _ | .float _ | .string _ | .object _ => by
      intro _
      simp [checkList]

theorem shown_checkItems (index : Nat) : ∀ items : List Json,
    (∀ item ∈ items, item.Shown) → ∀ child ∈ (checkItems index items).value, child.Shown
  | [], _ => by
      rw [checkItems]
      exact List.forall_mem_nil _
  | item :: rest, shown => by
      obtain ⟨first, later⟩ := List.forall_mem_cons.mp shown
      rw [checkItems]
      exact List.forall_mem_cons.mpr
        ⟨shown_check item first, shown_checkItems (index + 1) rest later⟩

end

theorem shown_of_ofJson? {value : Json} {raw : RawNode} (shown : value.Shown)
    (checked : ofJson? value = .ok raw) : raw.Shown := by
  rw [ofJson?] at checked
  split at checked
  · cases checked
    exact shown_check value shown
  · cases checked

end RawNode

namespace Tree

mutual

/-- Where all properties can be shown a refused one is told with the node. -/
theorem ofRaw_ne_unshown {path : TreePath} : ∀ {raw : RawNode}, raw.Shown →
    ofRaw path raw ≠ .error .unshown
  | ⟨type, id, key, props, children, target⟩, .node shown below => by
      rw [ofRaw.eq_def]
      dsimp only
      split
      · split
        · split <;> nofun
        · nofun
      · have told := Property.tells_shape shown type
        cases read : Shape.ofProps type props with
        | error error =>
            rw [read] at told
            cases error with
            | refused refusal => nofun
            | unshown => exact absurd rfl told
        | ok shape =>
            have rest : ofRawAll path 0 children ≠ .error .unshown := ofRawAll_ne_unshown below
            dsimp only
            cases found : ofRawAll path 0 children with
            | error error =>
                rw [found] at rest
                rintro ⟨⟩
                exact rest rfl
            | ok trees => nofun

theorem ofRawAll_ne_unshown {path : TreePath} {index : Nat} : ∀ {raws : List RawNode},
    (∀ raw ∈ raws, raw.Shown) → ofRawAll path index raws ≠ .error .unshown
  | [], _ => by
      rw [ofRawAll]
      nofun
  | raw :: rest, shown => by
      obtain ⟨first, later⟩ := List.forall_mem_cons.mp shown
      have here : ofRaw (path.child index) raw ≠ .error .unshown := ofRaw_ne_unshown first
      have below : ofRawAll path (index + 1) rest ≠ .error .unshown := ofRawAll_ne_unshown later
      rw [ofRawAll]
      cases found : ofRaw (path.child index) raw with
      | error error =>
          rw [found] at here
          rintro ⟨⟩
          exact here rfl
      | ok tree =>
          dsimp only
          cases others : ofRawAll path (index + 1) rest with
          | error error =>
              rw [others] at below
              rintro ⟨⟩
              exact below rfl
          | ok trees => nofun

end

end Tree

end SceneLayout
