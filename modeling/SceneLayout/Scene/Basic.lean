import SceneLayout.Entries
import SceneLayout.Scene.Operator

/-!
# Compiled scenes

A scene is a list of records, one per entity, and a list of operators on the buffer
in which the record of rank `i` has the slots `4 i` to `4 i + 3`.
-/

namespace SceneLayout

universe u

/-- What is drawn for an entity. -/
inductive Kind where
  /-- Nothing; the entity only holds others together. -/
  | none
  | rect
  | circle
  | text
  | arrow
deriving DecidableEq, Inhabited

/-- One entity of a scene with its declared numbers. -/
structure Record (α : Type u) where
  id : String
  kind : Kind
  x : α
  y : α
  width : α
  height : α
  r : Option α := .none
  text : Option String := .none
  fromId : Option String := .none
  toId : Option String := .none
  fill : Option String := .none
  stroke : Option String := .none
  strokeWidth : Option α := .none

/-- The number of slots of an entity. -/
def slotsPerEntity : Nat := 4

/-- The first slot of the entity of a rank. -/
def baseOf (rank : Nat) : Nat := slotsPerEntity * rank

/-- Records in the order of their slots, and operators in the order of their evaluation. -/
structure Scene (α : Type u) where
  records : List (Record α)
  operators : List (Operator α)

namespace Scene

variable {α : Type u}

/-- The ids in the order of the records. -/
def ids (scene : Scene α) : List String := scene.records.map Record.id

/-- The first slot of every id. -/
def index (scene : Scene α) : Entries Nat :=
  Entries.ofList (scene.records.mapIdx fun rank record => (record.id, baseOf rank))

/-- The first record with an id. -/
def record? (scene : Scene α) (id : String) : Option (Record α) :=
  scene.records.find? fun record => record.id == id

/-- The buffer that holds the declared numbers. -/
def initial (records : List (Record α)) : Buffer α :=
  (records.flatMap fun record => [record.x, record.y, record.width, record.height]).toArray

@[simp] theorem size_initial (records : List (Record α)) :
    (initial records).size = slotsPerEntity * records.length := by
  induction records with
  | nil => rfl
  | cons record rest ih =>
      simp only [initial, List.flatMap_cons, List.size_toArray, List.length_append,
        List.length_cons, List.length_nil] at ih ⊢
      rw [ih, slotsPerEntity]
      omega

end Scene

end SceneLayout
