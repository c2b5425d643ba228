import SceneLayout.Json.Token

/-!
# Reading JSON text

The words of a text are read one after the other, with the open arrays and objects
on a stack. After each word the reader knows what may follow, so a text is refused
at its first word out of place.
-/

namespace SceneLayout.Json

/-- An array or object that a value being read stands in. -/
inductive Frame where
  /-- The items before the value, last first. -/
  | array (before : List Json)
  /-- The members before the value, and the key of the value. -/
  | object (before : Entries Json) (key : String)

/-- What the reader has in hand after a word. -/
inductive Expectation where
  | value
  | item (before : List Json) (mayClose : Bool)
  | key (before : Entries Json) (mayClose : Bool)
  | colon (before : Entries Json) (key : String)
  /-- A value is complete. -/
  | next (value : Json)

/-- The open frames, innermost first, and what is expected inside them. -/
structure Reading where
  frames : List Frame
  expectation : Expectation

namespace Reading

/-- Nothing has been read yet. -/
def start : Reading := ⟨[], .value⟩

/-- A value begins with a word. -/
def beginValue (frames : List Frame) : Token → Option Reading
  | .openArray => some ⟨frames, .item [] true⟩
  | .openObject => some ⟨frames, .key [] true⟩
  | .text value => some ⟨frames, .next (.string value)⟩
  | .scalar value => some ⟨frames, .next value⟩
  | _ => none

/-- A complete value is followed by a word. -/
def continueAfter (value : Json) : List Frame → Token → Option Reading
  | .array before :: frames, .comma => some ⟨frames, .item (value :: before) false⟩
  | .array before :: frames, .closeArray =>
      some ⟨frames, .next (.array (value :: before).reverse)⟩
  | .object before key :: frames, .comma =>
      some ⟨frames, .key (Entries.insert key value before) false⟩
  | .object before key :: frames, .closeObject =>
      some ⟨frames, .next (.object (Entries.insert key value before))⟩
  | _, _ => none

/-- Reads one word. -/
def step (reading : Reading) (token : Token) : Option Reading :=
  match reading.expectation, token with
  | .value, token => beginValue reading.frames token
  | .item _ true, .closeArray => some ⟨reading.frames, .next (.array [])⟩
  | .item before _, token => beginValue (.array before :: reading.frames) token
  | .key _ true, .closeObject => some ⟨reading.frames, .next (.object [])⟩
  | .key before _, .text key => some ⟨reading.frames, .colon before key⟩
  | .colon before key, .colon => some ⟨.object before key :: reading.frames, .value⟩
  | .next value, token => continueAfter value reading.frames token
  | _, _ => none

/-- The value that has been read, if nothing is open. -/
def result? : Reading → Option Json
  | ⟨[], .next value⟩ => some value
  | _ => none

end Reading

/-- The value of a list of words; of members with one key the last value counts. -/
def ofTokens? (tokens : List Token) : Option Json :=
  (tokens.foldlM Reading.step Reading.start).bind Reading.result?

/-- The value of a JSON text. -/
def read? (text : String) : Option Json :=
  (Token.scanAll text).bind ofTokens?

end SceneLayout.Json
