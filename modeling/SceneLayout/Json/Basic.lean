import SceneLayout.Entries
import SceneLayout.Number.Binary64

/-!
# JSON values

The values that scene trees arrive as. Whole numbers are unbounded and kept apart
from doubles, though those of too many digits have no text. The members of an object
are ordered and have different keys.
-/

namespace SceneLayout

/-- A JSON value. -/
inductive Json where
  | null
  | bool (value : Bool)
  | int (value : Int)
  | float (value : Binary64)
  | string (value : String)
  | array (items : List Json)
  | object (members : List (String × Json))
deriving Inhabited

namespace Json

/-- The most digits that a whole number is read or written with. -/
def mostDigits : Nat := 4300

/-- The value of a member; an absent member counts as null. -/
def member (members : Entries Json) (key : String) : Json :=
  (Entries.find? members key).getD .null

/-- The value is null. -/
def isNull : Json → Bool
  | null => true
  | _ => false

/-- A void value says nothing: null, false, a zero, or an empty text, list or object. -/
def isVoid : Json → Bool
  | null => true
  | bool value => !value
  | int value => value == 0
  | float value => value.isZero
  | string value => value.isEmpty
  | array items => items.isEmpty
  | object members => members.isEmpty

/-- The first of two values, or the second if the first is void. -/
def orElse (first second : Json) : Json :=
  if first.isVoid then second else first

@[simp] theorem member_nil (key : String) : member [] key = null := rfl

theorem member_insert_self (key : String) (value : Json) (members : Entries Json) :
    member (Entries.insert key value members) key = value := by
  rw [member, Entries.find?_insert_self, Option.getD_some]

theorem member_insert_of_ne {key other : String} (h : other ≠ key) (value : Json)
    (members : Entries Json) :
    member (Entries.insert key value members) other = member members other := by
  rw [member, member, Entries.find?_insert_of_ne h]

theorem member_erase_self (key : String) (members : Entries Json) :
    member (Entries.erase key members) key = null := by
  rw [member, Entries.find?_erase_self, Option.getD_none]

theorem member_erase_of_ne {key other : String} (h : other ≠ key) (members : Entries Json) :
    member (Entries.erase key members) other = member members other := by
  rw [member, member, Entries.find?_erase_of_ne h]

@[simp] theorem orElse_null (second : Json) : orElse null second = second := rfl

theorem orElse_of_isVoid {first : Json} (h : first.isVoid = true) (second : Json) :
    orElse first second = second :=
  if_pos h

theorem orElse_of_not_isVoid {first : Json} (h : first.isVoid = false) (second : Json) :
    orElse first second = first :=
  if_neg (Bool.eq_false_iff.mp h)

theorem string_orElse {text : String} (written : text ≠ "") (second : Json) :
    orElse (string text) second = string text := by
  apply orElse_of_not_isVoid
  rw [isVoid, String.isEmpty_eq_false_iff]
  exact written

theorem orElse_null_orElse (first second : Json) :
    orElse (orElse first null) second = orElse first second := by
  cases h : first.isVoid
  · rw [orElse_of_not_isVoid h]
  · rw [orElse_of_isVoid h, orElse_of_isVoid h, orElse_null]

theorem isVoid_of_isNull {value : Json} (h : value.isNull = true) : value.isVoid = true := by
  cases value with
  | null => rfl
  | _ => cases h

end Json

end SceneLayout
