import SceneLayout.Layout
import SceneLayout.Proofs.OperatorGraph
import SceneLayout.Proofs.Pass

/-!
# Boxes of a layout

A scene with distinct ids whose operators stay inside its buffer is always laid out. Its
layout has one entry for each record, in their order: the box that the four numbers of
the record form after the passes that were made.

Main statements: `solve_eq_ok`, `find?_layoutOf`.
-/

namespace SceneLayout

universe u

/-! ## Boxes along an axis -/

namespace Box

variable {α : Type u}

/-- The position along an axis. -/
def position (box : Box α) : Axis → α
  | .x => box.x
  | .y => box.y

/-- The extent along an axis. -/
def extent (box : Box α) : Axis → α
  | .x => box.width
  | .y => box.height

/-- The far edge along an axis. -/
def finish [Add α] (box : Box α) (axis : Axis) : α := box.position axis + box.extent axis

end Box

variable {α : Type u}

/-- The box that the numbers from a base on form. -/
def boxAt (numbers : Nat → α) (base : Nat) : Box α :=
  ⟨numbers base, numbers (base + 1), numbers (base + 2), numbers (base + 3)⟩

@[simp] theorem position_boxAt (numbers : Nat → α) (base : Nat) (axis : Axis) :
    (boxAt numbers base).position axis = numbers (base + axis.position) := by
  cases axis <;> rfl

@[simp] theorem extent_boxAt (numbers : Nat → α) (base : Nat) (axis : Axis) :
    (boxAt numbers base).extent axis = numbers (base + axis.extent) := by
  cases axis <;> rfl

theorem boxAt_congr {numbers other : Nat → α} {base otherBase : Nat}
    (same : ∀ offset < 4, numbers (base + offset) = other (otherBase + offset)) :
    boxAt numbers base = boxAt other otherBase := by
  have x := same 0 (by decide)
  have y := same 1 (by decide)
  have width := same 2 (by decide)
  have height := same 3 (by decide)
  simp only [Nat.add_zero] at x
  simp only [boxAt, x, y, width, height]

/-- The layout that gives every id the box of its rank. -/
def layoutOf (ids : List String) (numbers : Nat → α) : Layout α :=
  ids.mapIdx fun rank id => (id, boxAt numbers (baseOf rank))

namespace Entries

variable {β : Type u}

theorem insert_of_not_mem {key : String} {entries : List (String × β)} (h : key ∉ keys entries)
    (value : β) : insert key value entries = entries ++ [(key, value)] := by
  induction entries with
  | nil => rfl
  | cons entry rest ih =>
      rw [keys, List.map_cons, List.mem_cons, not_or] at h
      have other : ¬(entry.1 == key) = true := fun same => h.1 (eq_of_beq same).symm
      rw [insert, if_neg other, ih h.2, List.cons_append]

/-- Entries with distinct keys are written one behind the other. -/
theorem ofList_of_nodup {entries : List (String × β)} (distinct : (keys entries).Nodup) :
    ofList entries = entries := by
  have build : ∀ written : List (String × β), (keys (written ++ entries)).Nodup →
      entries.foldl (fun written entry => insert entry.1 entry.2 written) written =
        written ++ entries := by
    clear distinct
    induction entries with
    | nil => simp
    | cons entry rest ih =>
        intro written distinct
        have fresh : entry.1 ∉ keys written := by
          rw [keys, List.map_append, List.map_cons] at distinct
          have apart := (List.nodup_append.mp distinct).2.2
          intro taken
          exact apart _ taken _ List.mem_cons_self rfl
        rw [List.append_cons] at distinct
        rw [List.foldl_cons, insert_of_not_mem fresh, ih _ distinct, ← List.append_cons]
  exact build [] distinct

theorem find?_of_getElem? {entries : List (String × β)} (distinct : (keys entries).Nodup)
    {rank : Nat} {key : String} {value : β} (h : entries[rank]? = some (key, value)) :
    find? entries key = some value := by
  induction entries generalizing rank with
  | nil => cases h
  | cons entry rest ih =>
      obtain ⟨k, v⟩ := entry
      rw [keys, List.map_cons, List.nodup_cons] at distinct
      rw [find?_cons]
      cases rank with
      | zero =>
          cases h
          rw [if_pos (beq_self_eq_true key)]
      | succ rank =>
          rw [List.getElem?_cons_succ] at h
          have listed : key ∈ rest.map Prod.fst :=
            List.mem_map.mpr ⟨_, List.mem_of_getElem? h, rfl⟩
          have other : ¬(k == key) = true := by
            intro same
            exact distinct.1 (eq_of_beq same ▸ listed)
          rw [if_neg other]
          exact ih distinct.2 h

section Image

variable {γ : Type u} {f : String → String} (injective : Function.Injective f) (g : β → γ)
include injective

/-- Where different keys go to different ones, entries can be written before or after. -/
theorem insert_image (key : String) (value : β) (entries : List (String × β)) :
    insert (f key) (g value) (entries.map (Prod.map f g)) =
      (insert key value entries).map (Prod.map f g) := by
  induction entries with
  | nil => rfl
  | cons entry rest ih =>
      obtain ⟨k, v⟩ := entry
      rw [List.map_cons, Prod.map_apply, insert, insert, ih]
      by_cases same : k = key
      · rw [if_pos (beq_iff_eq.mpr same), if_pos (beq_iff_eq.mpr (congrArg f same))]
        rfl
      · rw [if_neg (beq_iff_eq.not.mpr same), if_neg (beq_iff_eq.not.mpr (injective.ne same))]
        rfl

theorem ofList_image (entries : List (String × β)) :
    ofList (entries.map (Prod.map f g)) = (ofList entries).map (Prod.map f g) := by
  rw [ofList, ofList, List.foldl_map]
  change List.foldl _ (List.map (Prod.map f g) []) entries = _
  apply List.foldl_hom (List.map (Prod.map f g))
  intro written entry
  exact insert_image injective g entry.1 entry.2 written

theorem find?_image (entries : List (String × β)) (key : String) :
    find? (entries.map (Prod.map f g)) (f key) = (find? entries key).map g := by
  induction entries with
  | nil => rfl
  | cons entry rest ih =>
      obtain ⟨k, v⟩ := entry
      rw [List.map_cons, Prod.map_apply, find?_cons, find?_cons, ih]
      by_cases same : k = key
      · rw [if_pos (beq_iff_eq.mpr same), if_pos (beq_iff_eq.mpr (congrArg f same))]
        rfl
      · rw [if_neg (beq_iff_eq.not.mpr same), if_neg (beq_iff_eq.not.mpr (injective.ne same))]

end Image

end Entries

theorem keys_layoutOf (ids : List String) (numbers : Nat → α) :
    Entries.keys (layoutOf ids numbers) = ids := by
  rw [Entries.keys, layoutOf]
  apply List.ext_getElem?
  intro rank
  rw [List.getElem?_map, List.getElem?_mapIdx, Option.map_map]
  exact Option.map_id'

theorem ofList_layoutOf {ids : List String} (distinct : ids.Nodup) (numbers : Nat → α) :
    Entries.ofList (layoutOf ids numbers) = layoutOf ids numbers :=
  Entries.ofList_of_nodup (by rwa [keys_layoutOf])

/-- Every id is found with the box of its rank. -/
theorem find?_layoutOf {ids : List String} (distinct : ids.Nodup) (numbers : Nat → α)
    {id : String} (member : id ∈ ids) :
    Entries.find? (layoutOf ids numbers) id = some (boxAt numbers (baseOf (ids.idxOf id))) := by
  have listed : (layoutOf ids numbers)[ids.idxOf id]? =
      some (id, boxAt numbers (baseOf (ids.idxOf id))) := by
    rw [layoutOf, List.getElem?_mapIdx, List.getElem?_idxOf member]
    rfl
  exact Entries.find?_of_getElem? (by rwa [keys_layoutOf]) listed

/-! ## Laying out -/

/-- The box with the declared numbers. -/
def Record.box (record : Record α) : Box α :=
  ⟨record.x, record.y, record.width, record.height⟩

/-- The first four slots are those of the first record. -/
theorem numbers_initial_first [Scalar α] (record : Record α) (rest others : List (Record α))
    {slot : Nat} (early : slot < 4) :
    (Scene.initial (record :: rest)).numbers slot =
      (Scene.initial (record :: others)).numbers slot := by
  have cases : slot = 0 ∨ slot = 1 ∨ slot = 2 ∨ slot = 3 := by omega
  rcases cases with rfl | rfl | rfl | rfl <;> rfl

theorem numbers_initial_cons [Scalar α] (record : Record α) (rest : List (Record α)) (slot : Nat) :
    (Scene.initial (record :: rest)).numbers (slot + 4) = (Scene.initial rest).numbers slot := by
  simp [Scene.initial, Buffer.numbers]

theorem boxAt_initial [Scalar α] {records : List (Record α)} {rank : Nat} {record : Record α}
    (h : records[rank]? = some record) :
    boxAt (Scene.initial records).numbers (baseOf rank) = record.box := by
  induction records generalizing rank with
  | nil => cases h
  | cons first rest ih =>
      cases rank with
      | zero =>
          cases h
          rfl
      | succ rank =>
          rw [← ih h]
          have next : baseOf (rank + 1) = baseOf rank + 4 := Nat.mul_succ 4 rank
          simp only [boxAt, next, Nat.add_right_comm _ 4, numbers_initial_cons]

theorem box_eq_ok {buffer : Buffer α} [Scalar α] {base : Nat} (h : base + 3 < buffer.size) :
    Buffer.box buffer base = .ok (boxAt buffer.numbers base) := by
  have first : base < buffer.size := by omega
  have second : base + 1 < buffer.size := by omega
  have third : base + 2 < buffer.size := by omega
  rw [Buffer.box, Buffer.read_eq_ok first, Buffer.read_eq_ok second, Buffer.read_eq_ok third,
    Buffer.read_eq_ok h]
  rfl

namespace Scene

variable [Scalar α]

theorem boxes_eq_ok {buffer : Buffer α} {records : List (Record α)} {rank : Nat}
    (room : slotsPerEntity * (rank + records.length) ≤ buffer.size) :
    boxes buffer rank records = .ok ((records.map Record.id).mapIdx fun index id =>
      (id, boxAt buffer.numbers (baseOf (rank + index)))) := by
  induction records generalizing rank with
  | nil => rfl
  | cons record rest ih =>
      rw [List.length_cons] at room
      have here : baseOf rank + 3 < buffer.size := by
        simp only [baseOf, slotsPerEntity] at room ⊢
        omega
      rw [← Nat.add_assoc, Nat.add_right_comm] at room
      have others := ih room
      rw [boxes, box_eq_ok here, others, List.map_cons, List.mapIdx_cons]
      simp only [Nat.add_zero, Nat.add_assoc, Nat.add_comm 1]
      rfl

/-- The layout of a scene is read off the buffer that is left by the relaxation. An id that stands
twice gets the later box. -/
theorem solve_of_relax {scene : Scene α} {settings : Settings α} {final : Buffer α}
    {stats : Stats α}
    (ran : relax settings scene.operators (initial scene.records) = .ok (final, stats))
    (size : final.size = scene.slotCount) :
    scene.solve settings = .ok ⟨Entries.ofList (layoutOf scene.ids final.numbers), stats⟩ := by
  have room : slotsPerEntity * (0 + scene.records.length) ≤ final.size := by
    rw [size, Nat.zero_add]
    exact Nat.le_refl _
  have boxed : boxes final 0 scene.records = .ok (layoutOf scene.ids final.numbers) := by
    rw [boxes_eq_ok room, layoutOf, ids]
    simp only [Nat.zero_add]
  rw [solve, ran]
  simp only [Except.mapError, bind, Except.bind, boxed]
  rfl

/-- A scene whose operators stay inside its buffer is laid out. -/
theorem solve_eq_ok {scene : Scene α} (distinct : scene.ids.Nodup)
    (inside : ∀ operator ∈ scene.operators, operator.Inside scene.slotCount)
    (settings : Settings α) :
    ∃ count,
      scene.solve settings = .ok
        ⟨layoutOf scene.ids (Relaxation.afterPasses settings.damping scene.operators
            (initial scene.records).numbers count),
          Relaxation.statsAfter settings scene.operators (initial scene.records).numbers count⟩ ∧
      Relaxation.StopsAfter settings scene.operators (initial scene.records).numbers
        settings.budget count := by
  have size : (initial scene.records).size = scene.slotCount := size_initial scene.records
  rw [← size] at inside
  obtain ⟨count, final, ran, finalSize, numbers, stops⟩ := Relaxation.relax_eq_ok inside settings
  refine ⟨count, ?_, stops⟩
  rw [solve_of_relax ran (finalSize.trans size), ofList_layoutOf distinct, numbers]

end Scene

end SceneLayout
