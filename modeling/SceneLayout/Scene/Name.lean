import SceneLayout.Text.LowerCase
import SceneLayout.Tree.Basic
import SceneLayout.Tree.Path

/-!
# Names of nodes

A node is named by its key, else by its id, else by its type and place. A generated
name that is taken gets the first number that makes it free.
-/

namespace SceneLayout

/-- The field that an explicit name stands in. -/
inductive NameField where
  | key
  | id
deriving DecidableEq

namespace NodeName

/-- The explicit name of a node, if one of its fields is a text that is not empty. -/
def explicit? (key id : Option String) : Option (NameField × String) :=
  match nonEmpty key with
  | some name => some (.key, name)
  | none => (nonEmpty id).map (NameField.id, ·)
where
  nonEmpty (name : Option String) : Option String := name.filter fun name => !name.isEmpty

/-- The names tried for a generated one: the base itself, then the base with 1, 2 and so on. -/
def candidate (base : String) : Nat → String
  | 0 => base
  | number + 1 => base ++ "-" ++ toString (number + 1)

/-- The first candidate that is free, of those from a number on, when `left` of them may be
taken. -/
def firstFreeFrom (used : List String) (base : String) : Nat → Nat → String
  | 0, number => candidate base number
  | left + 1, number =>
      let name := candidate base number
      if used.contains name then firstFreeFrom used base left (number + 1) else name

/-- The first free candidate. Candidates differ from one another, so no more of them are taken than
names are used. -/
def firstFree (used : List String) (base : String) : String :=
  firstFreeFrom used base used.length 0

/-- The base of a generated name: the type in lower case and the place. -/
def base (type : Option String) (path : TreePath) : String :=
  lowerCase (type.getD "None") ++ "-" ++ path.text

end NodeName

end SceneLayout
