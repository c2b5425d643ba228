import SceneLayout.Geometry.Axis
import SceneLayout.Scalar

/-!
# Layout operators

A compiled scene is laid out in one buffer of numbers, four to an entity: position
along both axes, then extent along both. An operator holds slots of that buffer.
It reads the current buffer, proposes a value for each of its own slots, and never
sees what it proposes.

## Implementation notes

`proposals` lists the proposed values in the order in which they are written, so a
slot that is listed twice keeps its last value. `slots` are the slots that may be
proposed for and `reads` those that a proposal may depend on; both can be larger
than what one evaluation uses.
-/

namespace SceneLayout

universe u

/-- The numbers of all entities, four to an entity. -/
abbrev Buffer (α : Type u) := Array α

/-- A slot that is not in the buffer. -/
structure SlotError where
  slot : Nat
deriving DecidableEq

namespace Buffer

variable {α : Type u}

/-- The number at a slot. -/
def read (buffer : Buffer α) (slot : Nat) : Except SlotError α :=
  match buffer[slot]? with
  | some value => .ok value
  | none => .error ⟨slot⟩

/-- The buffer with another number at a slot. -/
def write (buffer : Buffer α) (slot : Nat) (value : α) : Except SlotError (Buffer α) :=
  if h : slot < buffer.size then .ok (buffer.set slot value h) else .error ⟨slot⟩

theorem read_eq_ok_iff {buffer : Buffer α} {slot : Nat} {value : α} :
    read buffer slot = .ok value ↔ buffer[slot]? = some value := by
  unfold read
  split <;> simp_all

theorem size_of_write_eq_ok {buffer result : Buffer α} {slot : Nat} {value : α}
    (h : write buffer slot value = .ok result) : result.size = buffer.size := by
  unfold write at h
  split at h
  · cases h
    simp
  · cases h

end Buffer

/-- The slots of one entity along one axis. -/
structure Span where
  position : Nat
  extent : Nat
deriving DecidableEq

/-- A layout operator. -/
inductive Operator (α : Type u) where
  /-- Moves every position to the least one. -/
  | alignNear (positions : List Nat)
  /-- Moves every far edge to the greatest one. -/
  | alignFar (spans : List Span)
  /-- Moves every center to the mean of the centers. -/
  | alignCenter (spans : List Span)
  /-- Moves every center to the center of the anchor, which stays. -/
  | centerOn (anchor : Span) (spans : List Span)
  /-- Spreads the entries between the least and the greatest position, or, with a spacing, puts
  each entry that far before the next one. -/
  | distribute (spans : List Span) (spacing : α)
  /-- Puts a box around a child, larger by the padding on every side. -/
  | background (child box : Nat) (padding : α)
  /-- Puts the children one after the other along the axis, and sizes the container by them. -/
  | stack (axis : Axis) (children : List Nat) (container : Nat) (spacing : α)
      (alignment : Alignment)

namespace Operator

variable {α : Type u}

/-- The slots that the operator may propose values for. -/
def slots : Operator α → List Nat
  | alignNear positions => positions
  | alignFar spans => spans.map Span.position
  | alignCenter spans => spans.map Span.position
  | centerOn _ spans => spans.map Span.position
  | distribute spans _ => spans.map Span.position
  | background _ box _ => [box, box + 1, box + 2, box + 3]
  | stack axis children container _ _ =>
      children.flatMap (fun base => [base + axis.position, base + axis.cross.position]) ++
        [container + axis.extent, container + axis.cross.extent]

/-- The slots that a proposal may depend on. -/
def reads : Operator α → List Nat
  | alignNear positions => positions
  | alignFar spans => both spans
  | alignCenter spans => both spans
  | centerOn anchor spans => both (anchor :: spans)
  | distribute spans _ => both spans
  | background child _ _ => [child, child + 1, child + 2, child + 3]
  | stack axis children container _ _ =>
      (container + axis.cross.extent) ::
        children.flatMap fun base => [base + axis.extent, base + axis.cross.extent]
where
  both (spans : List Span) : List Nat := spans.flatMap fun span => [span.position, span.extent]

/-- Writes proposed values into a buffer, one after the other. -/
def writeAll (buffer : Buffer α) (proposed : List (Nat × α)) : Except SlotError (Buffer α) :=
  proposed.foldlM (fun buffer entry => Buffer.write buffer entry.1 entry.2) buffer

theorem size_of_writeAll_eq_ok {buffer result : Buffer α} {proposed : List (Nat × α)}
    (h : writeAll buffer proposed = .ok result) : result.size = buffer.size := by
  induction proposed generalizing buffer with
  | nil =>
      cases h
      rfl
  | cons entry rest ih =>
      simp only [writeAll, List.foldlM_cons] at h
      cases hw : Buffer.write buffer entry.1 entry.2 with
      | error error =>
          rw [hw] at h
          cases h
      | ok middle =>
          rw [hw] at h
          exact (ih h).trans (Buffer.size_of_write_eq_ok hw)

variable [Scalar α]

open Scalar

/-- The position and the extent of a span. -/
def readSpan (current : Buffer α) (span : Span) : Except SlotError (α × α) := do
  let position ← Buffer.read current span.position
  let extent ← Buffer.read current span.extent
  return (position, extent)

/-- The proposals that put the centers of the spans at a place. -/
def centerProposals (current : Buffer α) (center : α) (spans : List Span) :
    Except SlotError (List (Nat × α)) :=
  spans.mapM fun span => do
    let extent ← Buffer.read current span.extent
    return (span.position, center - extent / nat 2)

/-- The proposals that put each span before the place of the next one, given in reverse order. -/
def spacedProposals (current : Buffer α) (spacing : α) :
    α → List Span → Except SlotError (List (Nat × α))
  | _, [] => .ok []
  | place, span :: rest => do
      let extent ← Buffer.read current span.extent
      let place := place - (extent + spacing)
      let others ← spacedProposals current spacing place rest
      return (span.position, place) :: others

/-- The proposals that spread spans at equal steps from a place, the first after `index` steps. -/
def spreadProposals (first step : α) : Nat → List Span → List (Nat × α)
  | _, [] => []
  | index, span :: rest =>
      (span.position, first + nat index * step) :: spreadProposals first step (index + 1) rest

/-- The place across a stack of a child with the given extent, inside the given room. -/
def acrossPlace (alignment : Alignment) (room thickness : α) : α :=
  match alignment with
  | .start => nat 0
  | .center => (room - thickness) / nat 2
  | .finish => room - thickness

/-- The proposals for the children of a stack, the place after the last one with its spacing, and
the largest extent across. -/
def stackProposals (current : Buffer α) (axis : Axis) (spacing : α) (alignment : Alignment)
    (room : α) : α → α → List Nat → Except SlotError (List (Nat × α) × α × α)
  | offset, widest, [] => .ok ([], offset, widest)
  | offset, widest, base :: rest => do
      let extent ← Buffer.read current (base + axis.extent)
      let thickness ← Buffer.read current (base + axis.cross.extent)
      let widest := if lt widest thickness then thickness else widest
      let (others, finish, widest) ← stackProposals current axis spacing alignment room
        (offset + (extent + spacing)) widest rest
      return ((base + axis.position, offset) ::
        (base + axis.cross.position, acrossPlace alignment room thickness) :: others,
        finish, widest)

/-- The values that the operator proposes for its slots, in the order of writing. -/
def proposals (current : Buffer α) : Operator α → Except SlotError (List (Nat × α))
  | alignNear positions => do
      match ← positions.mapM (Buffer.read current) with
      | [] => return []
      | first :: rest =>
          let lowest := least first rest
          return positions.map fun position => (position, lowest)
  | alignFar spans => do
      let values ← spans.mapM (readSpan current)
      match values.map fun value => value.1 + value.2 with
      | [] => return []
      | first :: rest =>
          let edge := greatest first rest
          return List.zipWith (fun span value => (span.position, edge - value.2)) spans values
  | alignCenter spans => do
      let values ← spans.mapM (readSpan current)
      if values.isEmpty then return []
      let total := values.foldl (fun sum value => sum + (value.1 + value.2 / nat 2)) (nat 0)
      centerProposals current (total / nat values.length) spans
  | centerOn anchor spans => do
      let (position, extent) ← readSpan current anchor
      centerProposals current (position + extent / nat 2) spans
  | distribute spans spacing => do
      if spans.length < 2 then return []
      if lt (nat 0) spacing then
        match spans.reverse with
        | [] => return []
        | last :: others =>
            let place ← Buffer.read current last.position
            return (last.position, place) :: (← spacedProposals current spacing place others)
      else
        match ← spans.mapM fun span => Buffer.read current span.position with
        | [] => return []
        | first :: rest =>
            let lowest := least first rest
            let step := (greatest first rest - lowest) / nat rest.length
            return spreadProposals lowest step 0 spans
  | background child box padding => do
      let x ← Buffer.read current child
      let y ← Buffer.read current (child + 1)
      let width ← Buffer.read current (child + 2)
      let height ← Buffer.read current (child + 3)
      return [(box, x - padding), (box + 1, y - padding), (box + 2, width + padding * nat 2),
        (box + 3, height + padding * nat 2)]
  | stack axis children container spacing alignment => do
      let room ← Buffer.read current (container + axis.cross.extent)
      let (proposed, finish, widest) ←
        stackProposals current axis spacing alignment room (nat 0) (nat 0) children
      let length := if children.isEmpty then nat 0 else finish - spacing
      return proposed ++
        [(container + axis.extent, length), (container + axis.cross.extent, widest)]

/-- Evaluates the operator on the current buffer and writes what it proposes into another one. -/
def eval (operator : Operator α) (current next : Buffer α) : Except SlotError (Buffer α) := do
  writeAll next (← operator.proposals current)

/-- Evaluation keeps the length of the buffer it writes into. -/
theorem size_of_eval_eq_ok {operator : Operator α} {current next result : Buffer α}
    (h : operator.eval current next = .ok result) : result.size = next.size := by
  unfold eval at h
  cases hp : operator.proposals current with
  | error error =>
      rw [hp] at h
      cases h
  | ok proposed =>
      rw [hp] at h
      exact size_of_writeAll_eq_ok h

end Operator

end SceneLayout
