import Mathlib.Tactic.Set
import Mathlib.Tactic.SplitIfs
import SceneLayout.Markup.Svg

/-!
# A reader of markup

A reader takes markup character by character, with the open elements on a stack. It knows
names, attributes between double quotes, self-closing tags, pairs of tags around texts and
elements, and four entities; everything else it refuses.

## Implementation notes

A place of the reader is left at a single character. Escaped data never contain it, and
they are escaped one character at a time. So the run over an escaped character puts exactly this
character back, and the run over escaped data is an induction on the data.

Main statements: `run_single` and `run_pair`.
-/

namespace SceneLayout

namespace Markup

/-- An element as it is read. The text is its own, without that of the elements in it. -/
inductive ReadElement where
  | mk (name : String) (attributes : Entries String) (text : String) (children : List ReadElement)

/-! ## Escaping one kind of character after the other -/

/-- Puts an entity in place of every occurrence of a character. -/
def replace (old : Char) (entity content : List Char) : List Char :=
  content.flatMap fun c => if c = old then entity else [c]

theorem flatMap_replace (old : Char) (entity content : List Char) (f : Char → List Char) :
    (replace old entity content).flatMap f =
      content.flatMap fun c => if c = old then entity.flatMap f else f c := by
  rw [replace, List.flatMap_assoc]
  congr 1
  funext c
  split
  · rfl
  · exact List.flatMap_singleton f c

theorem escapeTextChar_eq (c : Char) :
    escapeTextChar c =
      if c = '&' then ['&', 'a', 'm', 'p', ';']
      else if c = '>' then ['&', 'g', 't', ';']
      else if c = '<' then ['&', 'l', 't', ';']
      else [c] := by
  unfold escapeTextChar
  split
  · rfl
  · rfl
  · rfl
  · next notAmp notGreater notLess => rw [if_neg notAmp, if_neg notGreater, if_neg notLess]

theorem escapeValueChar_eq (c : Char) :
    escapeValueChar c = if c = '"' then ['&', 'q', 'u', 'o', 't', ';'] else escapeTextChar c := by
  unfold escapeValueChar
  split
  · rfl
  · next notQuote => rw [if_neg notQuote]

/-- A text is escaped as if its ampersands were replaced first, and then the two brackets. -/
theorem toList_escapeText_eq_replace (content : String) :
    (escapeText content).toList =
      replace '<' ['&', 'l', 't', ';']
        (replace '>' ['&', 'g', 't', ';']
          (replace '&' ['&', 'a', 'm', 'p', ';'] content.toList)) := by
  rw [toList_escapeText, replace, flatMap_replace, flatMap_replace]
  congr 1
  funext c
  rw [escapeTextChar_eq]
  rfl

/-- A value is escaped as a text whose quotes are replaced last. -/
theorem toList_escapeValue_eq_replace (value : String) :
    (escapeValue value).toList =
      replace '"' ['&', 'q', 'u', 'o', 't', ';'] (escapeText value).toList := by
  rw [toList_escapeValue, toList_escapeText, replace, List.flatMap_assoc]
  congr 1
  funext c
  rw [escapeValueChar_eq]
  split_ifs with quote
  · subst quote
    rfl
  · rw [escapeTextChar_eq]
    split_ifs
    · rfl
    · rfl
    · rfl
    · rw [List.flatMap_singleton, if_neg quote]

/-! ## The reader -/

/-- The character that an entity stands for. -/
def entity? : List Char → Option Char
  | ['a', 'm', 'p'] => some '&'
  | ['l', 't'] => some '<'
  | ['g', 't'] => some '>'
  | ['q', 'u', 'o', 't'] => some '"'
  | _ => none

/-- Data being read: what they say so far, and the name so far of an entity that has begun. -/
structure Data where
  text : String
  entity : Option (List Char)

namespace Data

/-- No data. -/
def empty : Data := ⟨"", none⟩

/-- Reads a character of data. -/
def step (data : Data) (c : Char) : Option Data :=
  match data.entity with
  | none => if c = '&' then some ⟨data.text, some []⟩ else some ⟨data.text.push c, none⟩
  | some name =>
      if c = ';' then (entity? name).map fun c => ⟨data.text.push c, none⟩
      else some ⟨data.text, some (name ++ [c])⟩

end Data

/-- The beginning of a tag: its name and the attributes read so far. -/
structure Tag where
  name : String
  attributes : Entries String

/-- An element whose end has not been read. -/
structure Frame where
  tag : Tag
  data : Data
  children : List ReadElement

/-- The element that is complete at its closing tag. -/
def Frame.element (frame : Frame) : ReadElement :=
  .mk frame.tag.name frame.tag.attributes frame.data.text frame.children

/-- Where in the markup the reader stands. -/
inductive Place where
  /-- Between two tags. -/
  | content
  /-- After the opening bracket of a tag. -/
  | opened
  | name (name : String)
  /-- After the name or an attribute of a tag. -/
  | named (tag : Tag)
  /-- After a blank in a tag. -/
  | spaced (tag : Tag)
  | key (tag : Tag) (key : String)
  /-- Between a key and the quote before its value. -/
  | equals (tag : Tag) (key : String)
  | value (tag : Tag) (key : String) (data : Data)
  /-- After the slash at the end of a self-closing tag. -/
  | ending (tag : Tag)
  | closing (name : String)
  /-- After the outermost element. -/
  | done (element : ReadElement)

/-- The open elements, innermost first, and where the reader stands in the innermost one. -/
structure Reader where
  frames : List Frame
  place : Place

/-- A character of a name. -/
def isNameChar (c : Char) : Bool := c.isAlphanum || c == '-' || c == '_' || c == ':' || c == '.'

namespace Reader

/-- Nothing has been read yet. -/
def start : Reader := ⟨[], .content⟩

/-- An element is complete. -/
def complete (element : ReadElement) : List Frame → Reader
  | [] => ⟨[], .done element⟩
  | frame :: frames => ⟨{ frame with children := frame.children ++ [element] } :: frames, .content⟩

/-- Reads the character after the name or an attribute of a tag. -/
def continueTag (frames : List Frame) (tag : Tag) (c : Char) : Option Reader :=
  if c = ' ' then some ⟨frames, .spaced tag⟩
  else if c = '>' then some ⟨⟨tag, .empty, []⟩ :: frames, .content⟩
  else none

/-- Reads a character. -/
def step : Reader → Char → Option Reader
  | ⟨[], .content⟩, c => if c = '<' then some ⟨[], .opened⟩ else none
  | ⟨frame :: frames, .content⟩, c =>
      if c = '<' then
        if frame.data.entity = none then some ⟨frame :: frames, .opened⟩ else none
      else (frame.data.step c).map fun data => ⟨{ frame with data } :: frames, .content⟩
  | ⟨frames, .opened⟩, c =>
      if c = '/' then some ⟨frames, .closing ""⟩
      else if isNameChar c then some ⟨frames, .name ("".push c)⟩
      else none
  | ⟨frames, .name name⟩, c =>
      if isNameChar c then some ⟨frames, .name (name.push c)⟩
      else continueTag frames ⟨name, []⟩ c
  | ⟨frames, .named tag⟩, c => continueTag frames tag c
  | ⟨frames, .spaced tag⟩, c =>
      if c = '/' then some ⟨frames, .ending tag⟩
      else if isNameChar c then some ⟨frames, .key tag ("".push c)⟩
      else none
  | ⟨frames, .key tag key⟩, c =>
      if c = '=' then some ⟨frames, .equals tag key⟩
      else if isNameChar c then some ⟨frames, .key tag (key.push c)⟩
      else none
  | ⟨frames, .equals tag key⟩, c =>
      if c = '"' then some ⟨frames, .value tag key .empty⟩ else none
  | ⟨frames, .value tag key data⟩, c =>
      if c = '"' then
        if data.entity = none then
          some ⟨frames, .named ⟨tag.name, tag.attributes ++ [(key, data.text)]⟩⟩
        else none
      else if c = '<' then none
      else (data.step c).map fun data => ⟨frames, .value tag key data⟩
  | ⟨frames, .ending tag⟩, c =>
      if c = '>' then some (complete (.mk tag.name tag.attributes "" []) frames) else none
  | ⟨[], .closing _⟩, _ => none
  | ⟨frame :: frames, .closing name⟩, c =>
      if c = '>' then
        if name = frame.tag.name then some (complete frame.element frames) else none
      else if isNameChar c then some ⟨frame :: frames, .closing (name.push c)⟩
      else none
  | ⟨_, .done _⟩, _ => none

/-- The outermost element, if it is complete. -/
def result? : Reader → Option ReadElement
  | ⟨_, .done element⟩ => some element
  | _ => none

/-- Reads characters. -/
def run (chars : List Char) (reader : Reader) : Option Reader := chars.foldlM step reader

@[simp] theorem run_nil (reader : Reader) : run [] reader = some reader := rfl

@[simp] theorem run_cons (c : Char) (chars : List Char) (reader : Reader) :
    run (c :: chars) reader = (reader.step c).bind (run chars) := rfl

theorem run_of_step {c : Char} {reader next : Reader} (h : reader.step c = some next)
    (chars : List Char) : run (c :: chars) reader = run chars next := by
  rw [run_cons, h, Option.bind_some]

theorem run_append (first second : List Char) (reader : Reader) :
    run (first ++ second) reader = (run first reader).bind (run second) :=
  List.foldlM_append

end Reader

/-- The outermost element of a text that is markup. -/
def read? (text : String) : Option ReadElement :=
  (Reader.run text.toList .start).bind Reader.result?

/-! ## Escaped data -/

theorem push_append_ofList (text : String) (c : Char) (chars : List Char) :
    text.push c ++ String.ofList chars = text ++ String.ofList (c :: chars) := by
  rw [String.push_eq_append, String.ofList_cons, String.append_assoc]

namespace Data

theorem foldlM_escapeTextChar (text : String) (c : Char) :
    (escapeTextChar c).foldlM step ⟨text, none⟩ = some ⟨text.push c, none⟩ := by
  rw [escapeTextChar_eq]
  split_ifs with amp greater less
  · subst amp
    rfl
  · subst greater
    rfl
  · subst less
    rfl
  · rw [List.foldlM_cons, step, if_neg amp]
    rfl

theorem foldlM_escapeValueChar (text : String) (c : Char) :
    (escapeValueChar c).foldlM step ⟨text, none⟩ = some ⟨text.push c, none⟩ := by
  rw [escapeValueChar_eq]
  split_ifs with quote
  · subst quote
    rfl
  · exact foldlM_escapeTextChar text c

/-- If each escaped character reads as this character, so do escaped data. -/
theorem foldlM_flatMap {escape : Char → List Char}
    (h : ∀ text c, (escape c).foldlM step ⟨text, none⟩ = some ⟨text.push c, none⟩)
    (text : String) (content : List Char) :
    (content.flatMap escape).foldlM step ⟨text, none⟩ =
      some ⟨text ++ String.ofList content, none⟩ := by
  induction content generalizing text with
  | nil =>
      rw [List.flatMap_nil, String.ofList_nil, String.append_empty]
      rfl
  | cons c rest ih =>
      calc ((c :: rest).flatMap escape).foldlM step ⟨text, none⟩
          = (rest.flatMap escape).foldlM step ⟨text.push c, none⟩ := by
            rw [List.flatMap_cons, List.foldlM_append, h]
            rfl
        _ = some ⟨text.push c ++ String.ofList rest, none⟩ := ih (text.push c)
        _ = some ⟨text ++ String.ofList (c :: rest), none⟩ := by rw [push_append_ofList]

end Data

theorem bracket_not_mem_escapeTextChar (c : Char) : '<' ∉ escapeTextChar c := by
  rw [escapeTextChar_eq]
  split_ifs with amp greater less
  · decide
  · decide
  · decide
  · simpa using Ne.symm less

theorem bracket_not_mem_escapeValueChar (c : Char) : '<' ∉ escapeValueChar c := by
  rw [escapeValueChar_eq]
  split_ifs
  · decide
  · exact bracket_not_mem_escapeTextChar c

namespace Reader

/-- Characters that are read one after the other at one place. -/
theorem run_eq_foldlM {σ : Type} {next : σ → Char → Option σ} {reader : σ → Reader}
    {chars : List Char} (h : ∀ c ∈ chars, ∀ s, (reader s).step c = (next s c).map reader) (s : σ) :
    run chars (reader s) = (chars.foldlM next s).map reader := by
  induction chars generalizing s with
  | nil => rfl
  | cons c rest ih =>
      rw [run_cons, h c List.mem_cons_self, List.foldlM_cons]
      cases next s c with
      | none => rfl
      | some s => exact ih (fun c member => h c (List.mem_cons_of_mem _ member)) s

/-- An escaped text is read as this text. -/
theorem run_escapeText (frames : List Frame) (tag : Tag) (text content : String)
    (children : List ReadElement) :
    run (escapeText content).toList ⟨⟨tag, ⟨text, none⟩, children⟩ :: frames, .content⟩ =
      some ⟨⟨tag, ⟨text ++ content, none⟩, children⟩ :: frames, .content⟩ := by
  have chars : ∀ c ∈ (escapeText content).toList, ∀ data : Data,
      step ⟨⟨tag, data, children⟩ :: frames, .content⟩ c =
        (data.step c).map fun data => ⟨⟨tag, data, children⟩ :: frames, .content⟩ := by
    intro c member data
    have inside : c ≠ '<' := by
      rintro rfl
      rw [toList_escapeText] at member
      obtain ⟨c, _, escaped⟩ := List.mem_flatMap.mp member
      exact bracket_not_mem_escapeTextChar c escaped
    rw [step, if_neg inside]
  rw [run_eq_foldlM chars ⟨text, none⟩, toList_escapeText,
    Data.foldlM_flatMap Data.foldlM_escapeTextChar, String.ofList_toList]
  rfl

/-- An escaped value is read as this value. -/
theorem run_escapeValue (frames : List Frame) (tag : Tag) (key value : String) :
    run (escapeValue value).toList ⟨frames, .value tag key .empty⟩ =
      some ⟨frames, .value tag key ⟨value, none⟩⟩ := by
  have chars : ∀ c ∈ (escapeValue value).toList, ∀ data : Data,
      step ⟨frames, .value tag key data⟩ c =
        (data.step c).map fun data => ⟨frames, .value tag key data⟩ := by
    intro c member data
    rw [toList_escapeValue] at member
    obtain ⟨original, _, escaped⟩ := List.mem_flatMap.mp member
    have noQuote : c ≠ '"' := by
      rintro rfl
      exact quote_not_mem_escapeValueChar original escaped
    have noBracket : c ≠ '<' := by
      rintro rfl
      exact bracket_not_mem_escapeValueChar original escaped
    rw [step, if_neg noQuote, if_neg noBracket]
  rw [run_eq_foldlM chars .empty, toList_escapeValue, Data.empty,
    Data.foldlM_flatMap Data.foldlM_escapeValueChar, String.ofList_toList, String.empty_append]
  rfl

end Reader

/-! ## Tags -/

/-- A name of an element or of an attribute. -/
def IsName (name : String) : Prop :=
  name.toList ≠ [] ∧ name.toList.all isNameChar = true

instance (name : String) : Decidable (IsName name) :=
  inferInstanceAs (Decidable (_ ∧ _))

theorem ne_of_isNameChar {c other : Char} (h : isNameChar c = true)
    (apart : isNameChar other = false) : c ≠ other := by
  rintro rfl
  rw [h] at apart
  cases apart

namespace Reader

/-- Characters that are added to a name one after the other. -/
theorem run_eq_append {reader : String → Reader} {chars : List Char}
    (h : ∀ c ∈ chars, ∀ name, (reader name).step c = some (reader (name.push c))) (name : String) :
    run chars (reader name) = some (reader (name ++ String.ofList chars)) := by
  induction chars generalizing name with
  | nil => rw [String.ofList_nil, String.append_empty, run_nil]
  | cons c rest ih =>
      rw [run_cons, h c List.mem_cons_self, Option.bind_some,
        ih (fun c member => h c (List.mem_cons_of_mem _ member)), push_append_ofList]

/-- A name is read from the place before it. -/
theorem run_name {name : String} (named : IsName name) {before : Reader} {reader : String → Reader}
    (enter : ∀ c, isNameChar c = true → before.step c = some (reader ("".push c)))
    (next : ∀ c, isNameChar c = true → ∀ name, (reader name).step c = some (reader (name.push c))) :
    run name.toList before = some (reader name) := by
  obtain ⟨nonempty, chars⟩ := named
  obtain ⟨c, rest, split⟩ := List.exists_cons_of_ne_nil nonempty
  rw [split, List.all_eq_true] at chars
  have more : ∀ c ∈ rest, ∀ name, (reader name).step c = some (reader (name.push c)) :=
    fun c member => next c (chars c (List.mem_cons_of_mem _ member))
  rw [split, run_cons, enter c (chars c List.mem_cons_self), Option.bind_some, run_eq_append more,
    push_append_ofList, ← split, String.ofList_toList, String.empty_append]

theorem run_elementName {name : String} (named : IsName name) (frames : List Frame) :
    run name.toList ⟨frames, .opened⟩ = some ⟨frames, .name name⟩ := by
  apply run_name named
  · intro c inName
    rw [step, if_neg (ne_of_isNameChar inName rfl), if_pos inName]
  · intro c inName name
    rw [step, if_pos inName]

theorem run_key {key : String} (named : IsName key) (frames : List Frame) (tag : Tag) :
    run key.toList ⟨frames, .spaced tag⟩ = some ⟨frames, .key tag key⟩ := by
  apply run_name named
  · intro c inName
    rw [step, if_neg (ne_of_isNameChar inName rfl), if_pos inName]
  · intro c inName name
    rw [step, if_neg (ne_of_isNameChar inName rfl), if_pos inName]

theorem run_closing {name : String} (named : IsName name) (frame : Frame) (frames : List Frame) :
    run name.toList ⟨frame :: frames, .closing ""⟩ = some ⟨frame :: frames, .closing name⟩ := by
  have next : ∀ c, isNameChar c = true → ∀ name, step ⟨frame :: frames, .closing name⟩ c =
      some ⟨frame :: frames, .closing (name.push c)⟩ := by
    intro c inName name
    rw [step, if_neg (ne_of_isNameChar inName rfl), if_pos inName]
  exact run_name named (fun c inName => next c inName "") next

end Reader

theorem toList_renderAttribute (key value : String) :
    (renderAttribute (key, value)).toList =
      ' ' :: (key.toList ++ '=' :: '"' :: ((escapeValue value).toList ++ ['"'])) := by
  simp only [renderAttribute, String.toList_append]
  simp

theorem toList_renderElement_single (name : String) (attributes : Entries String) :
    (renderElement name attributes none).toList =
      '<' :: (name.toList ++ ((attributes.flatMap fun entry => (renderAttribute entry).toList) ++
        [' ', '/', '>'])) := by
  simp only [renderElement, String.toList_append, String.toList_join, List.flatMap_map]
  simp

theorem toList_renderElement_pair (name : String) (attributes : Entries String) (body : String) :
    (renderElement name attributes (some body)).toList =
      '<' :: (name.toList ++ ((attributes.flatMap fun entry => (renderAttribute entry).toList) ++
        '>' :: (body.toList ++ '<' :: '/' :: (name.toList ++ ['>'])))) := by
  simp only [renderElement, String.toList_append, String.toList_join, List.flatMap_map]
  simp

namespace Reader

/-- An attribute is read after the name and the attributes before it. -/
theorem run_renderAttribute {key : String} (named : IsName key) (value : String)
    (frames : List Frame) (name : String) (before : Entries String) :
    run (renderAttribute (key, value)).toList ⟨frames, .named ⟨name, before⟩⟩ =
      some ⟨frames, .named ⟨name, before ++ [(key, value)]⟩⟩ := by
  rw [toList_renderAttribute]
  calc run (' ' :: (key.toList ++ '=' :: '"' :: ((escapeValue value).toList ++ ['"'])))
          ⟨frames, .named ⟨name, before⟩⟩
      = run (key.toList ++ '=' :: '"' :: ((escapeValue value).toList ++ ['"']))
          ⟨frames, .spaced ⟨name, before⟩⟩ := run_of_step (by simp [step, continueTag]) _
    _ = run ('=' :: '"' :: ((escapeValue value).toList ++ ['"']))
          ⟨frames, .key ⟨name, before⟩ key⟩ := by
        rw [run_append, run_key named, Option.bind_some]
    _ = run ('"' :: ((escapeValue value).toList ++ ['"'])) ⟨frames, .equals ⟨name, before⟩ key⟩ :=
        run_of_step (by simp [step]) _
    _ = run ((escapeValue value).toList ++ ['"']) ⟨frames, .value ⟨name, before⟩ key .empty⟩ :=
        run_of_step (by simp [step]) _
    _ = run ['"'] ⟨frames, .value ⟨name, before⟩ key ⟨value, none⟩⟩ := by
        rw [run_append, run_escapeValue, Option.bind_some]
    _ = some ⟨frames, .named ⟨name, before ++ [(key, value)]⟩⟩ :=
        run_of_step (by simp [step]) _

theorem run_renderAttributes {attributes : Entries String}
    (named : ∀ entry ∈ attributes, IsName entry.1) (frames : List Frame) (name : String)
    (before : Entries String) :
    run (attributes.flatMap fun entry => (renderAttribute entry).toList)
        ⟨frames, .named ⟨name, before⟩⟩ =
      some ⟨frames, .named ⟨name, before ++ attributes⟩⟩ := by
  induction attributes generalizing before with
  | nil => rw [List.flatMap_nil, run_nil, List.append_nil]
  | cons entry rest ih =>
      obtain ⟨key, value⟩ := entry
      have first := run_renderAttribute (named (key, value) List.mem_cons_self) value frames name
      have others := ih fun entry member => named entry (List.mem_cons_of_mem _ member)
      rw [List.flatMap_cons, run_append, first, Option.bind_some, others, List.append_assoc,
        List.singleton_append]

/-- After a name, the reader goes on as after an attribute. -/
theorem run_after_name {c : Char} (other : isNameChar c = false) (rest : List Char)
    (frames : List Frame) (name : String) :
    run (c :: rest) ⟨frames, .name name⟩ = run (c :: rest) ⟨frames, .named ⟨name, []⟩⟩ := by
  rw [run_cons, run_cons, step, if_neg (Bool.eq_false_iff.mp other), step]

/-- The beginning of a tag is read where no entity has begun. -/
theorem run_tag {name : String} {attributes : Entries String} (named : IsName name)
    (keys : ∀ entry ∈ attributes, IsName entry.1) {frames : List Frame}
    (free : ∀ frame ∈ frames.head?, frame.data.entity = none) {c : Char}
    (other : isNameChar c = false) (rest : List Char) :
    run ('<' :: (name.toList ++ ((attributes.flatMap fun entry => (renderAttribute entry).toList) ++
        c :: rest))) ⟨frames, .content⟩ =
      run (c :: rest) ⟨frames, .named ⟨name, attributes⟩⟩ := by
  set written := attributes.flatMap fun entry => (renderAttribute entry).toList with h
  have opened : step ⟨frames, .content⟩ '<' = some ⟨frames, .opened⟩ := by
    cases frames with
    | nil => rfl
    | cons frame frames => rw [step, if_pos rfl, if_pos (free frame rfl)]
  -- A name ends at the character after it, which begins the first attribute or stands in its place.
  have after : run (written ++ c :: rest) ⟨frames, .name name⟩ =
      run (written ++ c :: rest) ⟨frames, .named ⟨name, []⟩⟩ := by
    cases attributes with
    | nil => exact run_after_name other rest frames name
    | cons entry attributes =>
        rw [h, List.flatMap_cons, toList_renderAttribute, List.cons_append, List.cons_append]
        exact run_after_name rfl _ frames name
  calc run ('<' :: (name.toList ++ (written ++ c :: rest))) ⟨frames, .content⟩
      = run (name.toList ++ (written ++ c :: rest)) ⟨frames, .opened⟩ := run_of_step opened _
    _ = run (written ++ c :: rest) ⟨frames, .name name⟩ := by
        rw [run_append, run_elementName named, Option.bind_some]
    _ = run (written ++ c :: rest) ⟨frames, .named ⟨name, []⟩⟩ := after
    _ = run (c :: rest) ⟨frames, .named ⟨name, attributes⟩⟩ := by
        rw [run_append, h, run_renderAttributes keys, Option.bind_some, List.nil_append]

/-- A self-closing tag is read as an element with nothing in it. -/
theorem run_single {name : String} {attributes : Entries String} (named : IsName name)
    (keys : ∀ entry ∈ attributes, IsName entry.1) {frames : List Frame}
    (free : ∀ frame ∈ frames.head?, frame.data.entity = none) :
    run (renderElement name attributes none).toList ⟨frames, .content⟩ =
      some (complete (.mk name attributes "" []) frames) := by
  rw [toList_renderElement_single, run_tag named keys free rfl]
  calc run [' ', '/', '>'] ⟨frames, .named ⟨name, attributes⟩⟩
      = run ['/', '>'] ⟨frames, .spaced ⟨name, attributes⟩⟩ :=
        run_of_step (by simp [step, continueTag]) _
    _ = run ['>'] ⟨frames, .ending ⟨name, attributes⟩⟩ := run_of_step (by simp [step]) _
    _ = some (complete (.mk name attributes "" []) frames) :=
        run_of_step (by simp [step]) _

/-- A pair of tags is read as an element with what has been read between them. -/
theorem run_pair {name : String} {attributes : Entries String} (named : IsName name)
    (keys : ∀ entry ∈ attributes, IsName entry.1) {frames : List Frame}
    (free : ∀ frame ∈ frames.head?, frame.data.entity = none) {body text : String}
    {children : List ReadElement}
    (inside : run body.toList ⟨⟨⟨name, attributes⟩, .empty, []⟩ :: frames, .content⟩ =
      some ⟨⟨⟨name, attributes⟩, ⟨text, none⟩, children⟩ :: frames, .content⟩) :
    run (renderElement name attributes (some body)).toList ⟨frames, .content⟩ =
      some (complete (.mk name attributes text children) frames) := by
  set frame : Frame := ⟨⟨name, attributes⟩, ⟨text, none⟩, children⟩ with h
  rw [toList_renderElement_pair, run_tag named keys free rfl]
  calc run ('>' :: (body.toList ++ '<' :: '/' :: (name.toList ++ ['>'])))
          ⟨frames, .named ⟨name, attributes⟩⟩
      = run (body.toList ++ '<' :: '/' :: (name.toList ++ ['>']))
          ⟨⟨⟨name, attributes⟩, .empty, []⟩ :: frames, .content⟩ :=
        run_of_step (by simp [step, continueTag]) _
    _ = run ('<' :: '/' :: (name.toList ++ ['>'])) ⟨frame :: frames, .content⟩ := by
        rw [run_append, inside, Option.bind_some]
    _ = run ('/' :: (name.toList ++ ['>'])) ⟨frame :: frames, .opened⟩ :=
        run_of_step (by simp [step, h]) _
    _ = run (name.toList ++ ['>']) ⟨frame :: frames, .closing ""⟩ := run_of_step (by simp [step]) _
    _ = run ['>'] ⟨frame :: frames, .closing name⟩ := by
        rw [run_append, run_closing named, Option.bind_some]
    _ = some (complete (.mk name attributes text children) frames) :=
        run_of_step (by simp [step, h, Frame.element]) _

end Reader

end Markup

end SceneLayout
