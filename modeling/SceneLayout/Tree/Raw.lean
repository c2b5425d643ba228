import SceneLayout.Json.Basic

/-!
# Raw nodes

The fields that every declared node has in common, before the properties are
read. A missing list of children is an empty one, and so are missing properties.
-/

namespace SceneLayout

/-- A declared node with its common fields. -/
structure RawNode where
  type : Option String
  id : Option String
  key : Option String
  props : List (String × Json)
  children : List RawNode
  target : Option String
deriving Inhabited

namespace RawNode

/-- A text member, if it is one. -/
def textMember (members : Entries Json) (key : String) : Option String :=
  match Json.member members key with
  | .string value => some value
  | _ => none

/-- The members of an object member, if it is one. -/
def objectMember (members : Entries Json) (key : String) : Entries Json :=
  match Json.member members key with
  | .object value => value
  | _ => []

/-- The node with the given members and children; members of a wrong kind count as absent. -/
def ofMembers (members : Entries Json) (children : List RawNode) : RawNode where
  type := textMember members "type"
  id := textMember members "id"
  key := textMember members "key"
  props := objectMember members "props"
  children := children
  target := textMember members "target"

end RawNode

end SceneLayout
