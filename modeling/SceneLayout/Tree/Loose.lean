import SceneLayout.Tree.Declared

/-!
# Trees from unchecked nodes

A declared node may be taken as it is, with fields of any kind. A name, a target or
an unknown type is then passed on as the value that it is, and the properties matter
only to the types that read them. What a check would find goes unnoticed, unless a
value stands where it cannot be used. The children are looked at after the other
fields, one after the other.
-/

namespace SceneLayout

/-- A value that may stand where a node does: a node with fields of any kind, of which an absent
one is null; a list of such values; or any other value, without nodes in it. -/
inductive LooseValue where
  | node (type id key props target : Json) (children : LooseValue)
  | list (items : List LooseValue)
  | plain (value : Json)

/-- A scene tree whose names, targets and unknown types are of any kind. -/
inductive LooseTree where
  | ref (target : Json)
  | node (type key id : Json) (shape : Shape Binary64) (children : List LooseTree)

/-- Why an unchecked node was refused. -/
inductive LooseError where
  /-- A property or a target was refused. -/
  | node (error : NodeError)
  /-- Members are looked up in a value that is no object. -/
  | noMembers
  /-- A value is of a kind that cannot be used in its place. -/
  | wrongKind

namespace LooseValue

mutual

/-- A value where all objects stand for nodes. -/
def ofJson : Json → LooseValue
  | .object members =>
      .node (Json.member members "type") (Json.member members "id") (Json.member members "key")
        (Json.member members "props") (Json.member members "target") (ofChildrenMember members)
  | value => .plain value

/-- The children among the members of a node. -/
def ofChildrenMember : List (String × Json) → LooseValue
  | [] => .plain .null
  | (key, value) :: rest => if key == "children" then ofChildren value else ofChildrenMember rest

/-- The children of a node, where only the objects in a list stand for nodes. -/
def ofChildren : Json → LooseValue
  | .array items => .list (ofItems items)
  | value => .plain value

/-- The items of a list of children. -/
def ofItems : List Json → List LooseValue
  | [] => []
  | item :: rest => ofJson item :: ofItems rest

end

/-- The members of properties; void properties have none. -/
def members? : Json → Option (Entries Json)
  | .object members => some members
  | value => if value.isVoid then some [] else none

/-- A shape whose properties are no object. Only groups and containers read none. An arrow first
asks for the presence of a name, which texts and lists can tell. -/
def shapeBeside (props : Json) : Shape Binary64 → Except LooseError (Shape Binary64)
  | .group => .ok .group
  | .container type => .ok (.container type)
  | .arrow _ =>
      match props with
      | .string _ => .error .noMembers
      | .array _ => .error .noMembers
      | _ => .error .wrongKind
  | _ => .error .noMembers

/-- The value is neither a list nor an object. -/
def isSingle : Json → Bool
  | .array _ => false
  | .object _ => false
  | _ => true

/-- The shape of a type with properties. The type is shown before it is looked for, even if it is
no text. A type that is no text is unknown; lists and objects cannot be looked for among the
types. -/
def shape? (path : TreePath) (type props : Json) : Except LooseError (Shape Binary64) :=
  match type with
  | .string type =>
      let read (members : Entries Json) : Except LooseError (Shape Binary64) :=
        (Shape.ofProps (some type) members).mapError fun error =>
          .node (error.inNode (some type) path)
      match members? props with
      | some members => read members
      | none => read [] >>= shapeBeside props
  | type =>
      match type.display? with
      | none => .error (.node .unshown)
      | some _ => if isSingle type then .ok (.container none) else .error .wrongKind

/-- The value is the type of references. -/
def isRef : Json → Bool
  | .string type => type == "Ref"
  | _ => false

/-- What is wrong with a value in the place of a list of nodes. The parts of a text, of a list or
of an object are no nodes, and any other value has no parts. -/
def partsError : Json → LooseError
  | .string _ => .noMembers
  | .array _ => .noMembers
  | .object _ => .noMembers
  | _ => .wrongKind

end LooseValue

namespace LooseTree

mutual

/-- The tree of an unchecked node at a place. A reference keeps nothing but its target. -/
def ofValue (path : TreePath) : LooseValue → Except LooseError LooseTree
  | .node type id key props target children =>
      if LooseValue.isRef type then
        if target.isVoid then .error (.node (.refused (some "Ref") path .missingTarget))
        else .ok (.ref target)
      else
        match LooseValue.shape? path type props with
        | .error error => .error error
        | .ok shape => (ofChildren path children).map (.node type key id shape)
  | .list _ => .error .noMembers
  | .plain _ => .error .noMembers

/-- The trees of the children of a node. A node has parts, too, but they are no nodes. -/
def ofChildren (path : TreePath) : LooseValue → Except LooseError (List LooseTree)
  | .list items => ofItems path 0 items
  | .node .. => .error .noMembers
  | .plain value => if value.isVoid then .ok [] else .error (LooseValue.partsError value)

/-- The trees of unchecked items, of which the first has the given index. -/
def ofItems (path : TreePath) : Nat → List LooseValue → Except LooseError (List LooseTree)
  | _, [] => .ok []
  | index, first :: rest =>
      match ofValue (path.child index) first with
      | .error error => .error error
      | .ok tree => (ofItems path (index + 1) rest).map (tree :: ·)

end

/-- The tree that a value declares at a place, without a check. -/
def ofJson? (path : TreePath) (value : Json) : Except LooseError LooseTree :=
  ofValue path (.ofJson value)

end LooseTree

end SceneLayout
