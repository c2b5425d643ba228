import Mathlib.Data.List.Basic
import SceneLayout.Dependency
import SceneLayout.Proofs.Evaluation
import SceneLayout.Proofs.Reachability

/-!
# The graph of operators

The dependencies of a scene can be told exactly if its operators stay inside its buffer.
The graph of operators then has an arc from one operator to another if the first may
write a slot, and the second reads a slot, of one and the same id.

Main statements: `ofScene_eq_ok`, `mem_arcs_iff`.
-/

namespace SceneLayout

universe u

variable {α : Type u}

theorem exists_ok_of_mapM_eq_ok {β γ ε : Type*} {f : β → Except ε γ} {items : List β}
    {results : List γ} (h : items.mapM f = .ok results) :
    ∀ item ∈ items, ∃ result, f item = .ok result := by
  induction items generalizing results with
  | nil =>
      intro item member
      cases member
  | cons first rest ih =>
      rw [List.mapM_cons] at h
      cases here : f first with
      | error error =>
          rw [here] at h
          cases h
      | ok result =>
          rw [here] at h
          cases others : rest.mapM f with
          | error error =>
              rw [others] at h
              cases h
          | ok results =>
              intro item member
              rcases List.mem_cons.mp member with rfl | later
              · exact ⟨result, here⟩
              · exact ih others item later

namespace Scene

/-- The number of slots of a scene. -/
def slotCount (scene : Scene α) : Nat := slotsPerEntity * scene.records.length

/-- The id of the entity that a slot belongs to. -/
def owner? (scene : Scene α) (slot : Nat) : Option String := scene.ids[slot / slotsPerEntity]?

/-- One operator may write what another one reads: slots of a common id. -/
def Feeds (scene : Scene α) (i j : Nat) : Prop :=
  i ≠ j ∧ ∃ writer reader, scene.operators[i]? = some writer ∧ scene.operators[j]? = some reader ∧
    ∃ written ∈ writer.slots, ∃ read ∈ reader.reads, scene.owner? written = scene.owner? read

theorem owner?_eq_some {scene : Scene α} {slot : Nat} (h : slot < scene.slotCount) :
    ∃ id ∈ scene.ids, scene.owner? slot = some id := by
  have rank : slot / slotsPerEntity < scene.ids.length := by
    rw [ids, List.length_map]
    exact Nat.div_lt_of_lt_mul h
  exact ⟨scene.ids[slot / slotsPerEntity], List.getElem_mem rank, List.getElem?_eq_getElem rank⟩

end Scene

namespace Dependency

variable {scene : Scene α}

/-- The vertex of the entity of every rank. -/
def entityTable (scene : Scene α) : Array Nat :=
  (scene.ids.map scene.ids.eraseDups.idxOf).toArray

/-- The vertex of the entity that a slot belongs to. -/
def vertexOf (scene : Scene α) (slot : Nat) : Nat :=
  ((scene.owner? slot).map scene.ids.eraseDups.idxOf).getD 0

/-- What an operator reads and writes, as vertices. -/
def accessIn (scene : Scene α) (operator : Operator α) : Access where
  reads := (operator.reads.map (vertexOf scene)).eraseDups
  writes := (operator.slots.map (vertexOf scene)).eraseDups

theorem ownerOf_eq_ok {slot : Nat} (h : slot < scene.slotCount) :
    ownerOf (entityTable scene) slot = .ok (vertexOf scene slot) := by
  obtain ⟨id, _, owner⟩ := Scene.owner?_eq_some h
  rw [Scene.owner?] at owner
  simp [ownerOf, entityTable, vertexOf, Scene.owner?, owner]

theorem lt_slotCount_of_ownerOf_eq_ok {slot entity : Nat}
    (h : ownerOf (entityTable scene) slot = .ok entity) : slot < scene.slotCount := by
  rw [ownerOf] at h
  split at h
  · rename_i found
    obtain ⟨rank, _⟩ := Array.getElem?_eq_some_iff.mp found
    rw [entityTable, List.size_toArray, List.length_map, Scene.ids, List.length_map] at rank
    exact (Nat.div_lt_iff_lt_mul (by decide)).mp rank |>.trans_eq (Nat.mul_comm _ _)
  · cases h

theorem accessOf_eq_ok {operator : Operator α} (inside : operator.Inside scene.slotCount) :
    accessOf (entityTable scene) operator = .ok (accessIn scene operator) := by
  have reads : operator.reads.mapM (ownerOf (entityTable scene)) =
      .ok (operator.reads.map (vertexOf scene)) :=
    mapM_eq_ok fun slot member => ownerOf_eq_ok (inside slot (.inl member))
  have writes : operator.slots.mapM (ownerOf (entityTable scene)) =
      .ok (operator.slots.map (vertexOf scene)) :=
    mapM_eq_ok fun slot member => ownerOf_eq_ok (inside slot (.inr member))
  simp only [accessOf, ownersOf, reads, writes]
  rfl

theorem inside_of_accessOf_eq_ok {operator : Operator α} {access : Access}
    (h : accessOf (entityTable scene) operator = .ok access) :
    operator.Inside scene.slotCount := by
  rw [accessOf, ownersOf, ownersOf] at h
  cases reads : operator.reads.mapM (ownerOf (entityTable scene)) with
  | error error =>
      rw [reads] at h
      cases h
  | ok owners =>
      rw [reads] at h
      cases writes : operator.slots.mapM (ownerOf (entityTable scene)) with
      | error error =>
          rw [writes] at h
          cases h
      | ok others =>
          rintro slot (member | member)
          · obtain ⟨entity, found⟩ := exists_ok_of_mapM_eq_ok reads slot member
            exact lt_slotCount_of_ownerOf_eq_ok found
          · obtain ⟨entity, found⟩ := exists_ok_of_mapM_eq_ok writes slot member
            exact lt_slotCount_of_ownerOf_eq_ok found

/-- A scene whose operators stay inside its buffer has dependencies. -/
theorem ofScene_eq_ok (inside : ∀ operator ∈ scene.operators, operator.Inside scene.slotCount) :
    ∃ dependency, ofScene scene = .ok dependency ∧
      dependency.operators =
        ⟨scene.operators.length, operatorArcs (scene.operators.map (accessIn scene))⟩ := by
  have accesses : scene.operators.mapM (accessOf (entityTable scene)) =
      .ok (scene.operators.map (accessIn scene)) :=
    mapM_eq_ok fun operator member => accessOf_eq_ok (inside operator member)
  simp only [entityTable] at accesses
  simp only [ofScene, accesses]
  exact ⟨_, rfl, rfl⟩

/-- Only a scene whose operators stay inside its buffer has dependencies. -/
theorem inside_of_ofScene_eq_ok {dependency : Dependency} (h : ofScene scene = .ok dependency) :
    ∀ operator ∈ scene.operators, operator.Inside scene.slotCount := by
  intro operator member
  cases accesses : scene.operators.mapM (accessOf (entityTable scene)) with
  | error error =>
      simp only [entityTable] at accesses
      simp only [ofScene, accesses] at h
      cases h
  | ok results =>
      obtain ⟨access, found⟩ := exists_ok_of_mapM_eq_ok accesses operator member
      exact inside_of_accessOf_eq_ok found

theorem operators_of_ofScene_eq_ok {dependency : Dependency} (h : ofScene scene = .ok dependency) :
    dependency.operators =
      ⟨scene.operators.length, operatorArcs (scene.operators.map (accessIn scene))⟩ := by
  obtain ⟨other, found, operators⟩ := ofScene_eq_ok (inside_of_ofScene_eq_ok h)
  rw [h] at found
  cases found
  exact operators

theorem mem_operatorArcs_iff {accesses : List Access} {i j : Nat} :
    (i, j) ∈ operatorArcs accesses ↔ i ≠ j ∧ ∃ writer reader, accesses[i]? = some writer ∧
      accesses[j]? = some reader ∧ ∃ entity ∈ writer.writes, entity ∈ reader.reads := by
  simp only [operatorArcs, List.mem_flatMap, List.mem_filterMap, Prod.exists,
    List.mem_zipIdx_iff_getElem?, Option.ite_none_right_eq_some, Option.some.injEq, Prod.mk.injEq,
    List.any_eq_true, List.contains_iff_mem]
  constructor
  · rintro ⟨writer, i', atI, reader, j', atJ, ⟨distinct, entity, written, read⟩, rfl, rfl⟩
    exact ⟨distinct, writer, reader, atI, atJ, entity, written, read⟩
  · rintro ⟨distinct, writer, reader, atI, atJ, entity, written, read⟩
    exact ⟨writer, i, atI, reader, j, atJ, ⟨distinct, entity, written, read⟩, rfl, rfl⟩

/-- Slots inside the buffer belong to one vertex exactly if they belong to one id. -/
theorem vertexOf_eq_iff {slot other : Nat} (h : slot < scene.slotCount)
    (k : other < scene.slotCount) :
    vertexOf scene slot = vertexOf scene other ↔ scene.owner? slot = scene.owner? other := by
  obtain ⟨id, member, owner⟩ := Scene.owner?_eq_some h
  obtain ⟨id', member', owner'⟩ := Scene.owner?_eq_some k
  rw [vertexOf, vertexOf, owner, owner']
  simp only [Option.map_some, Option.getD_some, Option.some.injEq]
  exact List.idxOf_inj (List.mem_eraseDups.mpr member)

/-- The arcs between operators join exactly those of which the first may write what the second
reads. -/
theorem mem_arcs_iff {dependency : Dependency} (h : ofScene scene = .ok dependency) {i j : Nat} :
    (i, j) ∈ dependency.operators.arcs ↔ scene.Feeds i j := by
  have inside := inside_of_ofScene_eq_ok h
  rw [operators_of_ofScene_eq_ok h, mem_operatorArcs_iff, Scene.Feeds]
  apply and_congr_right
  intro _
  simp only [List.getElem?_map, Option.map_eq_some_iff]
  constructor
  · rintro ⟨_, _, ⟨writer, atI, rfl⟩, ⟨reader, atJ, rfl⟩, entity, writes, reads⟩
    simp only [accessIn, List.mem_eraseDups, List.mem_map] at writes reads
    obtain ⟨written, own, rfl⟩ := writes
    obtain ⟨read, seen, same⟩ := reads
    have insideWritten := inside writer (List.mem_of_getElem? atI) written (.inr own)
    have insideRead := inside reader (List.mem_of_getElem? atJ) read (.inl seen)
    exact ⟨writer, reader, atI, atJ, written, own, read, seen,
      (vertexOf_eq_iff insideWritten insideRead).mp same.symm⟩
  · rintro ⟨writer, reader, atI, atJ, written, own, read, seen, same⟩
    have insideWritten := inside writer (List.mem_of_getElem? atI) written (.inr own)
    have insideRead := inside reader (List.mem_of_getElem? atJ) read (.inl seen)
    refine ⟨_, _, ⟨writer, atI, rfl⟩, ⟨reader, atJ, rfl⟩, vertexOf scene written, ?_, ?_⟩
    · simp only [accessIn, List.mem_eraseDups, List.mem_map]
      exact ⟨written, own, rfl⟩
    · simp only [accessIn, List.mem_eraseDups, List.mem_map]
      exact ⟨read, seen, ((vertexOf_eq_iff insideWritten insideRead).mpr same).symm⟩

theorem size_operators {dependency : Dependency} (h : ofScene scene = .ok dependency) :
    dependency.operators.size = scene.operators.length := by
  rw [operators_of_ofScene_eq_ok h]

theorem closed_operators {dependency : Dependency} (h : ofScene scene = .ok dependency) :
    dependency.operators.Closed := by
  intro i j arc
  obtain ⟨_, writer, reader, atI, atJ, _⟩ := (mem_arcs_iff h).mp arc
  rw [size_operators h]
  exact ⟨(List.getElem?_eq_some_iff.mp atI).1, (List.getElem?_eq_some_iff.mp atJ).1⟩

end Dependency

end SceneLayout
