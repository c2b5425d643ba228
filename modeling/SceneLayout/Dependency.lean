import SceneLayout.Digraph
import SceneLayout.Scene.Basic

/-!
# Dependencies in a scene

Two graphs tell how the operators of a scene act on one another. The graph of
entities has an arc from `u` to `v` whenever some operator reads a slot of `u` and
may write one of `v`, and from the ends of an arrow to the arrow. The graph of
operators has an arc from one to another if the first may write an entity that the
second reads. A cycle among operators means that no single pass settles the scene.

## Implementation notes

Entities are known by their ids, so records that share an id are one vertex. The
vertices are numbered in the order in which their ids first appear. The reasons for
arcs are gathered one by one, sorted by their arcs, and then joined.
-/

namespace SceneLayout

universe u

/-- The entities that an operator reads and writes, each once. -/
structure Access where
  reads : List Nat
  writes : List Nat

/-- A reason for an arc between entities: an operator, or the end of an arrow. -/
structure Flow where
  source : Nat
  target : Nat
  operator : Option Nat

/-- An arc between entities and the operators it stands for; an arrow end is no operator. -/
structure EntityArc where
  source : Nat
  target : Nat
  operators : List (Option Nat)

/-- The dependencies of a scene. -/
structure Dependency where
  /-- The ids of the entities, each once. -/
  names : List String
  entities : Digraph
  operators : Digraph
  entityArcs : List EntityArc
  /-- Relates each entity to those that are reached from it. -/
  influence : Rows

namespace Flow

/-- Whether a flow may stand before another one: flows are sorted by source and target. -/
def before (a b : Flow) : Bool :=
  a.source < b.source || (a.source == b.source && a.target ≤ b.target)

/-- Puts a flow in front of arcs, of which the first may be its own. -/
def join (flow : Flow) : List EntityArc → List EntityArc
  | [] => [⟨flow.source, flow.target, [flow.operator]⟩]
  | arc :: rest =>
      if arc.source = flow.source ∧ arc.target = flow.target then
        { arc with operators := flow.operator :: arc.operators } :: rest
      else ⟨flow.source, flow.target, [flow.operator]⟩ :: arc :: rest

/-- The arcs of flows; the operators of an arc are in the order of its flows. -/
def arcs (flows : List Flow) : List EntityArc := (flows.mergeSort before).foldr join []

end Flow

namespace Dependency

variable {α : Type u}

/-- The entity that a slot belongs to, from the entities of all records. -/
def ownerOf (entities : Array Nat) (slot : Nat) : Except SlotError Nat :=
  match entities[slot / slotsPerEntity]? with
  | some entity => .ok entity
  | none => .error ⟨slot⟩

/-- The owners of slots, each once. -/
def ownersOf (entities : Array Nat) (slots : List Nat) : Except SlotError (List Nat) := do
  return (← slots.mapM (ownerOf entities)).eraseDups

/-- What an operator reads and writes. -/
def accessOf (entities : Array Nat) (operator : Operator α) : Except SlotError Access := do
  let reads ← ownersOf entities operator.reads
  let writes ← ownersOf entities operator.slots
  return ⟨reads, writes⟩

/-- The flows from what an operator reads to what else it writes. -/
def accessFlows (operator : Nat) (access : Access) : List Flow :=
  access.reads.flatMap fun source =>
    (access.writes.filter fun target => source != target).map fun target =>
      ⟨source, target, some operator⟩

/-- The flows from the ends of an arrow to the arrow. -/
def arrowFlows (names : List String) (record : Record α) : List Flow :=
  ([record.fromId, record.toId].filterMap id).filterMap fun endpoint =>
    if names.contains endpoint then
      some ⟨names.idxOf endpoint, names.idxOf record.id, none⟩
    else none

/-- The arcs from operators to other operators that read what they write. -/
def operatorArcs (accesses : List Access) : List (Nat × Nat) :=
  accesses.zipIdx.flatMap fun (writer, i) =>
    accesses.zipIdx.filterMap fun (reader, j) =>
      if i ≠ j ∧ writer.writes.any reader.reads.contains then some (i, j) else none

/-- The dependencies of a scene whose operators stay inside its buffer. -/
def ofScene (scene : Scene α) : Except SlotError Dependency := do
  let names := scene.ids.eraseDups
  let entityOf := (scene.ids.map names.idxOf).toArray
  let accesses ← scene.operators.mapM (accessOf entityOf)
  let flows := accesses.zipIdx.flatMap fun (access, i) => accessFlows i access
  let arcs := Flow.arcs (flows ++ scene.records.flatMap (arrowFlows names))
  let entities : Digraph := ⟨names.length, arcs.map fun arc => (arc.source, arc.target)⟩
  return {
    names := names
    entities := entities
    operators := ⟨scene.operators.length, operatorArcs accesses⟩
    entityArcs := arcs
    influence := entities.closure }

/-- The id of an entity. -/
def name (dependency : Dependency) (entity : Nat) : String := dependency.names.getD entity ""

/-- The last of the records with an id. -/
def record? (scene : Scene α) (id : String) : Option (Record α) :=
  scene.records.reverse.find? fun record => record.id == id

/-- The other entities whose boxes may depend on that of an entity, sorted. -/
def dependents (dependency : Dependency) (id : String) : List String :=
  let entity := dependency.names.idxOf id
  let reached := dependency.names.zipIdx.filterMap fun (other, v) =>
    if dependency.influence.relates entity v && other != id then some other else none
  reached.mergeSort fun a b => decide (a ≤ b)

end Dependency

end SceneLayout
