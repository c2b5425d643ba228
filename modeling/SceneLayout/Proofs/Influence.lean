import Mathlib.Data.List.Permutation
import SceneLayout.Proofs.Boxes
import SceneLayout.Proofs.Exact
import SceneLayout.Scene.Compile

/-!
# What an entity has influence on

An entity influences another one directly if some operator reads a slot of the first and
may write a slot of the second, and so do the ends of an arrow the arrow. The dependents
of an entity are those that it influences along any number of such steps. Two
relaxations that start apart in the numbers of one entity only, and make as many passes
with the same damping, give every other entity that is no dependent the same box.

Main statements: `mem_dependents_iff`, `box_eq_of_not_dependent`.

## Implementation notes

No law of arithmetic is used. An entity stands for all records with its id, so the ids
need not be distinct.
-/

namespace SceneLayout

universe u

variable {α : Type u}

namespace Scene

/-- Some operator reads the first entity and may write the second one. -/
def ReadsInto (scene : Scene α) (source target : String) : Prop :=
  ∃ operator ∈ scene.operators,
    (∃ slot ∈ operator.reads, scene.owner? slot = some source) ∧
      ∃ slot ∈ operator.slots, scene.owner? slot = some target

/-- The first entity is an end of an arrow, the second one. -/
def EndsAt (scene : Scene α) (source target : String) : Prop :=
  ∃ record ∈ scene.records, record.id = target ∧
    (record.fromId = some source ∨ record.toId = some source)

/-- One entity acts on another one, or it is the end of an arrow. -/
def Influences (scene : Scene α) (source target : String) : Prop :=
  source ∈ scene.ids ∧ target ∈ scene.ids ∧
    ((source ≠ target ∧ scene.ReadsInto source target) ∨ scene.EndsAt source target)

theorem mem_ids_of_owner?_eq {scene : Scene α} {slot : Nat} {id : String}
    (h : scene.owner? slot = some id) : id ∈ scene.ids :=
  List.mem_of_getElem? h

end Scene

namespace Flow

/-- Joining a flow to arcs adds its arc. -/
theorem mem_join_iff {flow : Flow} {arcs : List EntityArc} {v w : Nat} :
    (v, w) ∈ (flow.join arcs).map (fun arc => (arc.source, arc.target)) ↔
      (v, w) = (flow.source, flow.target) ∨
        (v, w) ∈ arcs.map fun arc => (arc.source, arc.target) := by
  cases arcs with
  | nil => simp [join]
  | cons arc rest =>
      rw [join]
      split
      · rename_i same
        simp [← same.1, ← same.2]
      · simp

/-- The arcs of flows join what the flows join. -/
theorem mem_arcs_iff {flows : List Flow} {v w : Nat} :
    (v, w) ∈ (arcs flows).map (fun arc => (arc.source, arc.target)) ↔
      ∃ flow ∈ flows, flow.source = v ∧ flow.target = w := by
  have joined : ∀ items : List Flow,
      (v, w) ∈ (items.foldr join []).map (fun arc => (arc.source, arc.target)) ↔
        ∃ flow ∈ items, flow.source = v ∧ flow.target = w := by
    intro items
    induction items with
    | nil => simp
    | cons flow rest ih =>
        rw [List.foldr_cons, mem_join_iff, ih, Prod.mk.injEq, eq_comm (a := v), eq_comm (a := w)]
        simp only [List.mem_cons, exists_eq_or_imp]
  rw [arcs, joined]
  simp only [List.mem_mergeSort]

end Flow

namespace Dependency

variable {scene : Scene α}

/-! ## The graph of entities -/

/-- The reasons for arcs that lie in operators. -/
def operatorFlows (scene : Scene α) : List Flow :=
  (scene.operators.map (accessIn scene)).zipIdx.flatMap fun (access, i) => accessFlows i access

theorem entities_of_ofScene_eq_ok {dependency : Dependency} (h : ofScene scene = .ok dependency) :
    dependency.names = scene.ids.eraseDups ∧
      dependency.entities = ⟨scene.ids.eraseDups.length,
        (Flow.arcs (operatorFlows scene ++
          scene.records.flatMap (arrowFlows scene.ids.eraseDups))).map
            fun arc => (arc.source, arc.target)⟩ ∧
      dependency.influence = dependency.entities.closure := by
  have accesses : scene.operators.mapM (accessOf (entityTable scene)) =
      .ok (scene.operators.map (accessIn scene)) :=
    mapM_eq_ok fun operator member => accessOf_eq_ok (inside_of_ofScene_eq_ok h operator member)
  simp only [entityTable] at accesses
  simp only [ofScene, accesses] at h
  cases h
  exact ⟨rfl, rfl, rfl⟩

/-- A slot of the buffer belongs to the vertex of an id exactly if it belongs to the id. -/
theorem vertexOf_eq_idxOf_iff {slot : Nat} (inside : slot < scene.slotCount) {id : String}
    (member : id ∈ scene.ids) :
    vertexOf scene slot = scene.ids.eraseDups.idxOf id ↔ scene.owner? slot = some id := by
  obtain ⟨owner, _, found⟩ := Scene.owner?_eq_some inside
  rw [vertexOf, found]
  simp only [Option.map_some, Option.getD_some, Option.some.injEq]
  constructor
  · intro same
    exact ((List.idxOf_inj (List.mem_eraseDups.mpr member)).mp same.symm).symm
  · rintro rfl
    rfl

theorem idxOf_mem_reads_iff {operator : Operator α} (inside : operator.Inside scene.slotCount)
    {id : String} (member : id ∈ scene.ids) :
    scene.ids.eraseDups.idxOf id ∈ (accessIn scene operator).reads ↔
      ∃ slot ∈ operator.reads, scene.owner? slot = some id := by
  simp only [accessIn, List.mem_eraseDups, List.mem_map]
  exact exists_congr fun slot => and_congr_right fun own =>
    vertexOf_eq_idxOf_iff (inside slot (.inl own)) member

theorem idxOf_mem_writes_iff {operator : Operator α} (inside : operator.Inside scene.slotCount)
    {id : String} (member : id ∈ scene.ids) :
    scene.ids.eraseDups.idxOf id ∈ (accessIn scene operator).writes ↔
      ∃ slot ∈ operator.slots, scene.owner? slot = some id := by
  simp only [accessIn, List.mem_eraseDups, List.mem_map]
  exact exists_congr fun slot => and_congr_right fun own =>
    vertexOf_eq_idxOf_iff (inside slot (.inr own)) member

theorem mem_accessFlows_iff {i : Nat} {access : Access} {v w : Nat} :
    (∃ flow ∈ accessFlows i access, flow.source = v ∧ flow.target = w) ↔
      v ≠ w ∧ v ∈ access.reads ∧ w ∈ access.writes := by
  simp only [accessFlows, List.mem_flatMap, List.mem_map, List.mem_filter, bne_iff_ne]
  constructor
  · rintro ⟨_, ⟨source, read, target, ⟨written, apart⟩, rfl⟩, rfl, rfl⟩
    exact ⟨apart, read, written⟩
  · rintro ⟨apart, read, written⟩
    exact ⟨_, ⟨v, read, w, ⟨written, apart⟩, rfl⟩, rfl, rfl⟩

/-- Operators are a reason for an arc exactly if one of them reads the first of two entities and may
write the second one. -/
theorem mem_operatorFlows_iff (inside : ∀ operator ∈ scene.operators,
    operator.Inside scene.slotCount) {source target : String} (first : source ∈ scene.ids)
    (second : target ∈ scene.ids) :
    (∃ flow ∈ operatorFlows scene, flow.source = scene.ids.eraseDups.idxOf source ∧
        flow.target = scene.ids.eraseDups.idxOf target) ↔
      source ≠ target ∧ scene.ReadsInto source target := by
  have apart : scene.ids.eraseDups.idxOf source ≠ scene.ids.eraseDups.idxOf target ↔
      source ≠ target := not_congr (List.idxOf_inj (List.mem_eraseDups.mpr first))
  constructor
  · rintro ⟨flow, listed, ends⟩
    obtain ⟨⟨access, i⟩, atI, flows⟩ := List.mem_flatMap.mp listed
    obtain ⟨distinct, reads, writes⟩ := mem_accessFlows_iff.mp ⟨flow, flows, ends⟩
    obtain ⟨operator, member, rfl⟩ :=
      List.mem_map.mp (List.mem_of_getElem? (List.mem_zipIdx_iff_getElem?.mp atI))
    exact ⟨apart.mp distinct, operator, member,
      (idxOf_mem_reads_iff (inside operator member) first).mp reads,
      (idxOf_mem_writes_iff (inside operator member) second).mp writes⟩
  · rintro ⟨distinct, operator, member, reads, writes⟩
    obtain ⟨i, atI⟩ := List.getElem?_of_mem (List.mem_map_of_mem member)
    obtain ⟨flow, flows, ends⟩ := (mem_accessFlows_iff (i := i)).mpr ⟨apart.mpr distinct,
      (idxOf_mem_reads_iff (inside operator member) first).mpr reads,
      (idxOf_mem_writes_iff (inside operator member) second).mpr writes⟩
    have listed : (accessIn scene operator, i) ∈ (scene.operators.map (accessIn scene)).zipIdx :=
      List.mem_zipIdx_iff_getElem?.mpr atI
    exact ⟨flow, List.mem_flatMap.mpr ⟨_, listed, flows⟩, ends⟩

theorem mem_arrowFlows_iff {names : List String} {record : Record α} {v w : Nat} :
    (∃ flow ∈ arrowFlows names record, flow.source = v ∧ flow.target = w) ↔
      ∃ endpoint ∈ names, (record.fromId = some endpoint ∨ record.toId = some endpoint) ∧
        names.idxOf endpoint = v ∧ names.idxOf record.id = w := by
  simp only [arrowFlows, List.mem_filterMap, List.mem_cons, List.not_mem_nil, or_false, id_eq,
    exists_eq_right, List.contains_iff_mem, Option.ite_none_right_eq_some, Option.some.injEq]
  constructor
  · rintro ⟨_, ⟨endpoint, listed, named, rfl⟩, rfl, rfl⟩
    exact ⟨endpoint, named, listed.imp Eq.symm Eq.symm, rfl, rfl⟩
  · rintro ⟨endpoint, named, listed, rfl, rfl⟩
    exact ⟨_, ⟨endpoint, listed.imp Eq.symm Eq.symm, named, rfl⟩, rfl, rfl⟩

/-- Records are a reason for an arc exactly if one of them is an arrow with the first of two entities
for an end and the second one for its id. -/
theorem mem_recordFlows_iff {source target : String} (first : source ∈ scene.ids) :
    (∃ flow ∈ scene.records.flatMap (arrowFlows scene.ids.eraseDups),
        flow.source = scene.ids.eraseDups.idxOf source ∧
          flow.target = scene.ids.eraseDups.idxOf target) ↔
      scene.EndsAt source target := by
  constructor
  · rintro ⟨flow, listed, ends⟩
    obtain ⟨record, member, flows⟩ := List.mem_flatMap.mp listed
    obtain ⟨endpoint, named, isEnd, atSource, atTarget⟩ :=
      mem_arrowFlows_iff.mp ⟨flow, flows, ends⟩
    have here : record.id ∈ scene.ids.eraseDups :=
      List.mem_eraseDups.mpr (List.mem_map_of_mem member)
    rw [List.idxOf_inj named] at atSource
    rw [List.idxOf_inj here] at atTarget
    subst atSource
    exact ⟨record, member, atTarget, isEnd⟩
  · rintro ⟨record, member, rfl, isEnd⟩
    obtain ⟨flow, flows, ends⟩ :=
      mem_arrowFlows_iff.mpr ⟨source, List.mem_eraseDups.mpr first, isEnd, rfl, rfl⟩
    exact ⟨flow, List.mem_flatMap.mpr ⟨record, member, flows⟩, ends⟩

/-- The arcs between entities are their influences. -/
theorem mem_entities_arcs_iff {dependency : Dependency} (h : ofScene scene = .ok dependency)
    {source target : String} (first : source ∈ scene.ids) (second : target ∈ scene.ids) :
    (scene.ids.eraseDups.idxOf source, scene.ids.eraseDups.idxOf target) ∈
      dependency.entities.arcs ↔ scene.Influences source target := by
  rw [(entities_of_ofScene_eq_ok h).2.1, Flow.mem_arcs_iff, Scene.Influences, and_iff_right first,
    and_iff_right second, ← mem_operatorFlows_iff (inside_of_ofScene_eq_ok h) first second,
    ← mem_recordFlows_iff first]
  simp only [List.mem_append, or_and_right, exists_or]

/-- A slot of the buffer belongs to the vertex of some id. -/
theorem exists_idxOf_eq_vertexOf {slot : Nat} (inside : slot < scene.slotCount) :
    ∃ id ∈ scene.ids, scene.ids.eraseDups.idxOf id = vertexOf scene slot := by
  obtain ⟨id, member, owner⟩ := Scene.owner?_eq_some inside
  exact ⟨id, member, ((vertexOf_eq_idxOf_iff inside member).mpr owner).symm⟩

/-- Every arc between entities stands for an influence. -/
theorem exists_influence_of_mem_arcs {dependency : Dependency} (h : ofScene scene = .ok dependency)
    {v w : Nat} (arc : (v, w) ∈ dependency.entities.arcs) :
    ∃ source target, scene.Influences source target ∧
      scene.ids.eraseDups.idxOf source = v ∧ scene.ids.eraseDups.idxOf target = w := by
  have inside := inside_of_ofScene_eq_ok h
  have named : (∃ id ∈ scene.ids, scene.ids.eraseDups.idxOf id = v) ∧
      ∃ id ∈ scene.ids, scene.ids.eraseDups.idxOf id = w := by
    rw [(entities_of_ofScene_eq_ok h).2.1, Flow.mem_arcs_iff] at arc
    obtain ⟨flow, listed, ends⟩ := arc
    rcases List.mem_append.mp listed with inOperators | inRecords
    · obtain ⟨⟨access, i⟩, atI, flows⟩ := List.mem_flatMap.mp inOperators
      obtain ⟨-, reads, writes⟩ := mem_accessFlows_iff.mp ⟨flow, flows, ends⟩
      obtain ⟨operator, member, rfl⟩ :=
        List.mem_map.mp (List.mem_of_getElem? (List.mem_zipIdx_iff_getElem?.mp atI))
      simp only [accessIn, List.mem_eraseDups, List.mem_map] at reads writes
      obtain ⟨read, seen, rfl⟩ := reads
      obtain ⟨written, own, rfl⟩ := writes
      exact ⟨exists_idxOf_eq_vertexOf (inside operator member read (.inl seen)),
        exists_idxOf_eq_vertexOf (inside operator member written (.inr own))⟩
    · obtain ⟨record, member, flows⟩ := List.mem_flatMap.mp inRecords
      obtain ⟨endpoint, known, -, rfl, rfl⟩ := mem_arrowFlows_iff.mp ⟨flow, flows, ends⟩
      exact ⟨⟨endpoint, List.mem_eraseDups.mp known, rfl⟩,
        ⟨record.id, List.mem_map_of_mem member, rfl⟩⟩
  obtain ⟨⟨source, first, rfl⟩, ⟨target, second, rfl⟩⟩ := named
  exact ⟨source, target, (mem_entities_arcs_iff h first second).mp arc, rfl, rfl⟩

/-! ## Dependents -/

theorem closed_entities {dependency : Dependency} (h : ofScene scene = .ok dependency) :
    dependency.entities.Closed := by
  intro v w arc
  obtain ⟨source, target, ⟨first, second, -⟩, rfl, rfl⟩ := exists_influence_of_mem_arcs h arc
  rw [(entities_of_ofScene_eq_ok h).2.1]
  exact ⟨List.idxOf_lt_length_of_mem (List.mem_eraseDups.mpr first),
    List.idxOf_lt_length_of_mem (List.mem_eraseDups.mpr second)⟩

/-- What is reached along arcs is what is influenced in one step or more. -/
theorem reaches_idxOf_iff {dependency : Dependency} (h : ofScene scene = .ok dependency)
    {source target : String} (second : target ∈ scene.ids) :
    dependency.entities.Reaches (scene.ids.eraseDups.idxOf source)
        (scene.ids.eraseDups.idxOf target) ↔
      Relation.TransGen scene.Influences source target := by
  constructor
  · have along : ∀ w, dependency.entities.Reaches (scene.ids.eraseDups.idxOf source) w →
        ∃ target, scene.ids.eraseDups.idxOf target = w ∧
          Relation.TransGen scene.Influences source target := by
      intro w reached
      induction reached with
      | single arc =>
          obtain ⟨first, target, step, atFirst, atTarget⟩ := exists_influence_of_mem_arcs h arc
          have same : first = source :=
            (List.idxOf_inj (List.mem_eraseDups.mpr step.1)).mp atFirst
          exact ⟨target, atTarget, .single (same ▸ step)⟩
      | tail _ arc ih =>
          obtain ⟨middle, atMiddle, path⟩ := ih
          obtain ⟨first, target, step, atFirst, atTarget⟩ := exists_influence_of_mem_arcs h arc
          have same : first = middle :=
            (List.idxOf_inj (List.mem_eraseDups.mpr step.1)).mp (atFirst.trans atMiddle.symm)
          exact ⟨target, atTarget, path.tail (same ▸ step)⟩
    intro reached
    obtain ⟨other, atOther, path⟩ := along _ reached
    have same : target = other :=
      (List.idxOf_inj (List.mem_eraseDups.mpr second)).mp atOther.symm
    exact same ▸ path
  · intro path
    exact path.lift scene.ids.eraseDups.idxOf fun _ _ step =>
      (mem_entities_arcs_iff h step.1 step.2.1).mpr step

/-- The dependents of an entity are the others that it influences in one step or more. -/
theorem mem_dependents_iff {dependency : Dependency} (h : ofScene scene = .ok dependency)
    {source target : String} :
    target ∈ dependency.dependents source ↔
      target ≠ source ∧ Relation.TransGen scene.Influences source target := by
  obtain ⟨names, -, influence⟩ := entities_of_ofScene_eq_ok h
  simp only [dependents, names, influence, List.mem_mergeSort, List.mem_filterMap, Prod.exists,
    List.mem_zipIdx_iff_getElem?, Option.ite_none_right_eq_some, Option.some.injEq, Bool.and_eq_true,
    bne_iff_ne, Digraph.relates_closure_iff (closed_entities h)]
  constructor
  · rintro ⟨other, v, atV, ⟨reached, apart⟩, rfl⟩
    have known : other ∈ scene.ids := List.mem_eraseDups.mp (List.mem_of_getElem? atV)
    have place : scene.ids.eraseDups.idxOf other = v := by
      obtain ⟨small, rfl⟩ := List.getElem?_eq_some_iff.mp atV
      exact (nodup_eraseDups scene.ids).idxOf_getElem v small
    rw [← place] at reached
    exact ⟨apart, (reaches_idxOf_iff h known).mp reached⟩
  · rintro ⟨apart, path⟩
    have known : target ∈ scene.ids := by
      obtain ⟨_, _, step⟩ := Relation.TransGen.tail'_iff.mp path
      exact step.2.1
    exact ⟨target, scene.ids.eraseDups.idxOf target,
      List.getElem?_idxOf (List.mem_eraseDups.mpr known),
      ⟨(reaches_idxOf_iff h known).mpr path, apart⟩, rfl⟩

end Dependency

/-! ## Two relaxations -/

namespace Operator

variable [Scalar α] {operator : Operator α} {numbers other : Nat → α}

/-- States that agree on a set of slots go on to agree there after an operator that reads only the
set when it writes to it. -/
theorem moved_congr {kept : Nat → Prop}
    (closed : ∀ slot ∈ operator.slots, kept slot → ∀ read ∈ operator.reads, kept read)
    (agree : ∀ slot, kept slot → numbers slot = other slot) (damping : α) :
    ∀ slot, kept slot → operator.moved damping numbers slot = operator.moved damping other slot := by
  intro slot keeps
  by_cases own : slot ∈ operator.slots
  · have proposed : operator.target numbers slot = operator.target other slot :=
      target_congr (fun read seen => agree read (closed slot own keeps read seen)) (agree slot keeps)
    rw [moved_of_mem own, moved_of_mem own, proposed, agree slot keeps]
  · rw [moved_of_not_mem own, moved_of_not_mem own, agree slot keeps]

end Operator

namespace Relaxation

variable [Scalar α] {operators : List (Operator α)} {numbers other : Nat → α}

theorem pass_congr {kept : Nat → Prop}
    (closed : ∀ operator ∈ operators, ∀ slot ∈ operator.slots, kept slot →
      ∀ read ∈ operator.reads, kept read)
    (agree : ∀ slot, kept slot → numbers slot = other slot) (damping : α) :
    ∀ slot, kept slot → pass damping operators numbers slot = pass damping operators other slot := by
  induction operators generalizing numbers other with
  | nil => exact agree
  | cons operator rest ih =>
      exact ih (fun later member => closed later (List.mem_cons_of_mem _ member))
        (Operator.moved_congr (closed operator List.mem_cons_self) agree damping)

/-- States that agree on a set of slots that nothing flows into agree there after any number of
passes. -/
theorem afterPasses_congr {kept : Nat → Prop}
    (closed : ∀ operator ∈ operators, ∀ slot ∈ operator.slots, kept slot →
      ∀ read ∈ operator.reads, kept read)
    (agree : ∀ slot, kept slot → numbers slot = other slot) (damping : α) (count : Nat) :
    ∀ slot, kept slot → afterPasses damping operators numbers count slot =
      afterPasses damping operators other count slot := by
  induction count with
  | zero => exact agree
  | succ count ih =>
      rw [afterPasses_succ, afterPasses_succ]
      exact pass_congr closed ih damping

end Relaxation

namespace Scene

/-- A slot of no entity that another one influences, nor of that one itself. -/
def Spared (scene : Scene α) (entity : String) (slot : Nat) : Prop :=
  ∀ id, scene.owner? slot = some id →
    id ≠ entity ∧ ¬Relation.TransGen scene.Influences entity id

/-- An operator that writes to a spared slot reads spared slots only. -/
theorem spared_of_mem_reads {scene : Scene α} {operator : Operator α}
    (member : operator ∈ scene.operators) (inside : operator.Inside scene.slotCount)
    {entity : String} {written read : Nat} (own : written ∈ operator.slots)
    (spared : scene.Spared entity written) (seen : read ∈ operator.reads) :
    scene.Spared entity read := by
  intro source fromSource
  obtain ⟨target, _, toTarget⟩ := owner?_eq_some (inside written (.inr own))
  obtain ⟨apart, unreached⟩ := spared target toTarget
  by_cases same : source = target
  · subst same
    exact ⟨apart, unreached⟩
  · have step : scene.Influences source target :=
      ⟨mem_ids_of_owner?_eq fromSource, mem_ids_of_owner?_eq toTarget,
        .inl ⟨same, operator, member, ⟨read, seen, fromSource⟩, written, own, toTarget⟩⟩
    constructor
    · rintro rfl
      exact unreached (.single step)
    · intro path
      exact unreached (path.tail step)

/-- The slots of an entity belong to it. -/
theorem owner?_baseOf_add {scene : Scene α} {rank : Nat} {id : String}
    (h : scene.ids[rank]? = some id) {offset : Nat} (small : offset < slotsPerEntity) :
    scene.owner? (baseOf rank + offset) = some id := by
  have place : (baseOf rank + offset) / slotsPerEntity = rank := by
    simp only [baseOf, slotsPerEntity] at *
    omega
  rw [owner?, place, h]

end Scene

/-- Two relaxations of a scene that start apart in the numbers of one entity only, and make as many
passes with the same damping, give every other entity the same box, unless it is one of the
dependents. These are the others that the entity influences in one step or more. -/
theorem box_eq_of_not_dependent [Scalar α] (scene : Scene α)
    (inside : ∀ operator ∈ scene.operators, operator.Inside scene.slotCount) (entity : String)
    (settings otherSettings : Settings α) (damping : settings.damping = otherSettings.damping)
    (buffer other : Buffer α) (size : buffer.size = scene.slotCount)
    (otherSize : other.size = scene.slotCount)
    (same : ∀ slot, scene.owner? slot ≠ some entity → buffer[slot]? = other[slot]?) :
    ∃ dependency final stats otherFinal otherStats,
      Dependency.ofScene scene = .ok dependency ∧
      (∀ id, id ∈ dependency.dependents entity ↔
        id ≠ entity ∧ Relation.TransGen scene.Influences entity id) ∧
      relax settings scene.operators buffer = .ok (final, stats) ∧
      relax otherSettings scene.operators other = .ok (otherFinal, otherStats) ∧
      (stats.passes = otherStats.passes → ∀ rank id, scene.ids[rank]? = some id → id ≠ entity →
        id ∉ dependency.dependents entity → ∃ box, Buffer.box final (baseOf rank) = .ok box ∧
          Buffer.box otherFinal (baseOf rank) = .ok box) := by
  obtain ⟨dependency, found, -⟩ := Dependency.ofScene_eq_ok inside
  obtain ⟨count, final, ran, finalSize, numbers, -⟩ :=
    Relaxation.relax_eq_ok (size ▸ inside) settings
  obtain ⟨otherCount, otherFinal, otherRan, otherFinalSize, otherNumbers, -⟩ :=
    Relaxation.relax_eq_ok (otherSize ▸ inside) otherSettings
  refine ⟨dependency, final, _, otherFinal, _, found,
    fun id => Dependency.mem_dependents_iff found, ran, otherRan, ?_⟩
  intro passes rank id atRank apart independent
  have unreached : ¬Relation.TransGen scene.Influences entity id := fun path =>
    independent ((Dependency.mem_dependents_iff found).mpr ⟨apart, path⟩)
  have start : ∀ slot, scene.Spared entity slot → buffer.numbers slot = other.numbers slot := by
    intro slot spared
    have agree := same slot fun owner => (spared entity owner).1 rfl
    simp only [Buffer.numbers, Array.getD_eq_getD_getElem?, agree]
  have finish : ∀ slot, scene.Spared entity slot → final.numbers slot = otherFinal.numbers slot := by
    have counts : count = otherCount := passes
    rw [numbers, otherNumbers, ← damping, ← counts]
    apply Relaxation.afterPasses_congr _ start
    intro operator member written own spared read seen
    exact Scene.spared_of_mem_reads member (inside operator member) own spared seen
  have within : ∀ offset < slotsPerEntity, final.numbers (baseOf rank + offset) =
      otherFinal.numbers (baseOf rank + offset) := by
    intro offset small
    apply finish
    intro owner owned
    rw [Scene.owner?_baseOf_add atRank small] at owned
    cases owned
    exact ⟨apart, unreached⟩
  have room : baseOf rank + 3 < scene.slotCount := by
    have small := (List.getElem?_eq_some_iff.mp atRank).1
    rw [Scene.ids, List.length_map] at small
    simp only [baseOf, Scene.slotCount, slotsPerEntity]
    omega
  have boxes : boxAt otherFinal.numbers (baseOf rank) = boxAt final.numbers (baseOf rank) := by
    rw [boxAt, boxAt, ← within 1 (by decide), ← within 2 (by decide), ← within 3 (by decide)]
    exact congrArg (Box.mk · _ _ _) (within 0 (by decide)).symm
  refine ⟨boxAt final.numbers (baseOf rank), box_eq_ok (by omega), ?_⟩
  rw [box_eq_ok (by omega), boxes]

/-- Two aligned entities, the second one in a frame, and a note beside the frame. -/
def framedPair : Scene ℚ where
  records := ["first", "second", "frame", "note"].map fun id => Record.empty id .rect
  operators := [.alignNear [0, 4], .background 4 8 2, .alignNear [13, 9]]

/-- The note acts on the frame that it is aligned with, but not on what is in the frame. -/
theorem box_eq_framedPair :
    ∃ dependency final stats otherFinal otherStats box,
      Dependency.ofScene framedPair = .ok dependency ∧
      dependency.dependents "note" = ["frame"] ∧
      relax ⟨3, 0, 1 / 2⟩ framedPair.operators
        #[3, 0, 10, 10, 5, 1, 20, 20, 0, 0, 0, 0, 0, 70, 8, 8] = .ok (final, stats) ∧
      relax ⟨3, 1, 1 / 2⟩ framedPair.operators
        #[3, 0, 10, 10, 5, 1, 20, 20, 0, 0, 0, 0, 6, 9, 1, 2] = .ok (otherFinal, otherStats) ∧
      Buffer.box final (baseOf 1) = .ok box ∧ Buffer.box otherFinal (baseOf 1) = .ok box := by
  have same : ∀ slot, framedPair.owner? slot ≠ some "note" →
      (#[3, 0, 10, 10, 5, 1, 20, 20, 0, 0, 0, 0, 0, 70, 8, 8] : Buffer ℚ)[slot]? =
        (#[3, 0, 10, 10, 5, 1, 20, 20, 0, 0, 0, 0, 6, 9, 1, 2] : Buffer ℚ)[slot]? := by
    intro slot
    by_cases small : slot < 16
    · revert slot
      decide
    · intro _
      rw [Array.getElem?_eq_none (not_lt.mp small), Array.getElem?_eq_none (not_lt.mp small)]
  obtain ⟨dependency, final, stats, otherFinal, otherStats, found, -, ran, otherRan, boxes⟩ :=
    box_eq_of_not_dependent framedPair (by decide) "note" ⟨3, 0, 1 / 2⟩ ⟨3, 1, 1 / 2⟩ rfl _ _ rfl
      rfl same
  have passes : stats.passes = otherStats.passes := by
    have three : ((relax ⟨3, 0, 1 / 2⟩ framedPair.operators
          (#[3, 0, 10, 10, 5, 1, 20, 20, 0, 0, 0, 0, 0, 70, 8, 8] : Buffer ℚ)).toOption.map
            fun result => result.2.passes) = some 3 ∧
        ((relax ⟨3, 1, 1 / 2⟩ framedPair.operators
          (#[3, 0, 10, 10, 5, 1, 20, 20, 0, 0, 0, 0, 6, 9, 1, 2] : Buffer ℚ)).toOption.map
            fun result => result.2.passes) = some 3 := by
      decide +kernel
    rw [ran, otherRan] at three
    exact (Option.some.inj three.1).trans (Option.some.inj three.2).symm
  have dependents : dependency.dependents "note" = ["frame"] := by
    have computed : ((Dependency.ofScene framedPair).toOption.map fun dependency =>
        dependency.dependents "note") = some ["frame"] := by
      cbv
    rw [found] at computed
    exact Option.some.inj computed
  obtain ⟨box, here, there⟩ := boxes passes 1 "second" rfl (by decide) (by simp [dependents])
  exact ⟨dependency, final, stats, otherFinal, otherStats, box, found, dependents, ran, otherRan,
    here, there⟩

end SceneLayout
