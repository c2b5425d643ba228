import SceneLayout.Tree.Raw

/-!
# Checking declared nodes

A declared node is an object with six known fields, each of its own kind. Checking
a value finds all its faults at once, each with the place where it stands. The
rules on references are looked at only where nothing else is wrong, in the node
itself or below it.
-/

namespace SceneLayout

/-- What is wrong at one place of a declared tree. -/
inductive FaultKind where
  /-- The text is no JSON. -/
  | unreadable
  | notNode
  | missing
  | notText
  | notProps
  | notList
  | unknownField
  | refWithoutTarget
  | refWithChildren
deriving DecidableEq

/-- A fault and the field names and list indexes that lead to it. -/
structure Fault where
  place : List String
  kind : FaultKind
deriving DecidableEq

namespace Fault

/-- The fault, seen from one level further out. -/
def under (step : String) (fault : Fault) : Fault :=
  { fault with place := step :: fault.place }

/-- A fault of a field. -/
def field (name : String) (kind : FaultKind) : Fault := ⟨[name], kind⟩

end Fault

/-- A value as far as it could be read, and all faults found on the way. -/
structure Checked (β : Type) where
  value : β
  faults : List Fault

namespace RawNode

/-- The fields that a node may have. -/
def fieldNames : List String := ["type", "id", "key", "props", "children", "target"]

/-- The type must be present and a text. -/
def typeFaults (members : Entries Json) : List Fault :=
  match Entries.find? members "type" with
  | none => [.field "type" .missing]
  | some (.string _) => []
  | some _ => [.field "type" .notText]

/-- An optional text may be absent or null. -/
def textFaults (members : Entries Json) (name : String) : List Fault :=
  match Json.member members name with
  | .null => []
  | .string _ => []
  | _ => [.field name .notText]

/-- The properties may be absent or null. -/
def propsFaults (members : Entries Json) : List Fault :=
  match Json.member members "props" with
  | .null => []
  | .object _ => []
  | _ => [.field "props" .notProps]

/-- No other fields are allowed. -/
def unknownFaults (members : Entries Json) : List Fault :=
  ((Entries.keys members).filter fun key => !fieldNames.contains key).map
    (Fault.field · .unknownField)

/-- A reference names its target and has no children. -/
def refFaults (node : RawNode) : List Fault :=
  if node.type == some "Ref" then
    if (node.target.getD "").isEmpty then [⟨[], .refWithoutTarget⟩]
    else if node.children.isEmpty then [] else [⟨[], .refWithChildren⟩]
  else []

/-- The node of an object whose children are checked. -/
def checkMembers (members : Entries Json) (children : Checked (List RawNode)) : Checked RawNode :=
  let node := ofMembers members children.value
  let faults := typeFaults members ++ textFaults members "id" ++ textFaults members "key" ++
    propsFaults members ++ children.faults ++ textFaults members "target" ++ unknownFaults members
  ⟨node, if faults.isEmpty then node.refFaults else faults⟩

mutual

/-- Checks a value as a node. -/
def check : Json → Checked RawNode
  | .object members => checkMembers members (checkChildren members)
  | _ => ⟨default, [⟨[], .notNode⟩]⟩

/-- Checks the children among the members of a node. -/
def checkChildren : List (String × Json) → Checked (List RawNode)
  | [] => ⟨[], []⟩
  | (key, value) :: rest => if key == "children" then checkList value else checkChildren rest

/-- Checks a list of children, which may be null. -/
def checkList : Json → Checked (List RawNode)
  | .null => ⟨[], []⟩
  | .array items =>
      let children := checkItems 0 items
      ⟨children.value, children.faults.map (Fault.under "children")⟩
  | _ => ⟨[], [.field "children" .notList]⟩

/-- Checks the items of a list of children, of which the first has the given index. -/
def checkItems : Nat → List Json → Checked (List RawNode)
  | _, [] => ⟨[], []⟩
  | index, item :: rest =>
      let first := check item
      let others := checkItems (index + 1) rest
      ⟨first.value :: others.value,
        first.faults.map (Fault.under (toString index)) ++ others.faults⟩

end

/-- The node that a value declares, or all that is wrong with it. -/
def ofJson? (value : Json) : Except (List Fault) RawNode :=
  let checked := check value
  if checked.faults.isEmpty then .ok checked.value else .error checked.faults

end RawNode

end SceneLayout
