import SceneLayout.Geometry.Box
import SceneLayout.Relaxation
import SceneLayout.Scene.Basic

/-!
# Layouts

The layout of a scene gives every id the box of its record in the relaxed buffer,
in the order of the records.
-/

namespace SceneLayout

universe u

/-- Boxes by id. -/
abbrev Layout (α : Type u) := Entries (Box α)

/-- A layout and how its relaxation ended. -/
structure Solution (α : Type u) where
  layout : Layout α
  stats : Stats α

namespace Buffer

variable {α : Type u}

/-- The box of the entity whose slots begin at a base. -/
def box (buffer : Buffer α) (base : Nat) : Except SlotError (Box α) := do
  let x ← read buffer base
  let y ← read buffer (base + 1)
  let width ← read buffer (base + 2)
  let height ← read buffer (base + 3)
  return ⟨x, y, width, height⟩

/-- The number of entities that the buffer has room for. -/
def entityCount (buffer : Buffer α) : Nat := buffer.size / slotsPerEntity

end Buffer

namespace Scene

variable {α : Type u}

/-- The boxes of records, of which the first has the given rank. -/
def boxes (buffer : Buffer α) : Nat → List (Record α) → Except SlotError (List (String × Box α))
  | _, [] => .ok []
  | rank, record :: rest => do
      let box ← Buffer.box buffer (baseOf rank)
      return (record.id, box) :: (← boxes buffer (rank + 1) rest)

/-- Lays out a scene. -/
def solve [Scalar α] (settings : Settings α) (scene : Scene α) :
    Except SlotError (Solution α) := do
  let (buffer, stats) ←
    (relax settings scene.operators (initial scene.records)).mapError Interruption.error
  return ⟨Entries.ofList (← boxes buffer 0 scene.records), stats⟩

end Scene

end SceneLayout
