import SceneLayout.Number.Double
import SceneLayout.Proofs.Boxes
import SceneLayout.Proofs.CompletePasses
import SceneLayout.Proofs.Relocation

/-!
# Transposed scenes

The two axes are alike. In the transposed scene every entity has its numbers along the axes
swapped, every operator works on the swapped slots, and stacks run along the other axis. It is laid
out like the scene itself, with the same statistics, and every box is transposed.

## Implementation notes

Nothing is asked of the length of the buffer. A scene that can be laid out either has its operators
inside its buffer, or no pass is made over it.

Main statement: `solve_transpose`.
-/

namespace SceneLayout

universe u

variable {α : Type u}

/-! ## What is transposed -/

/-- The slot of the same entity for the other axis: the first with the second, the third with the
fourth. -/
def mirrorSlot (slot : Nat) : Nat := if slot % 2 = 0 then slot + 1 else slot - 1

/-- The span of the same entity along the other axis. -/
def Span.transpose (span : Span) : Span := ⟨mirrorSlot span.position, mirrorSlot span.extent⟩

/-- The operator for the other axis. A background treats both axes alike. -/
def Operator.transpose : Operator α → Operator α
  | alignNear positions => .alignNear (positions.map mirrorSlot)
  | alignFar spans => .alignFar (spans.map Span.transpose)
  | alignCenter spans => .alignCenter (spans.map Span.transpose)
  | centerOn anchor spans => .centerOn anchor.transpose (spans.map Span.transpose)
  | distribute spans spacing => .distribute (spans.map Span.transpose) spacing
  | background child box padding => .background child box padding
  | stack axis children container spacing alignment =>
      .stack axis.cross children container spacing alignment

/-- The record with its numbers along the axes swapped. -/
def Record.transpose (record : Record α) : Record α :=
  { record with x := record.y, y := record.x, width := record.height, height := record.width }

/-- The scene with its axes swapped. -/
def Scene.transpose (scene : Scene α) : Scene α :=
  ⟨scene.records.map Record.transpose, scene.operators.map Operator.transpose⟩

/-- The box with its axes swapped. -/
def Box.transpose (box : Box α) : Box α := ⟨box.y, box.x, box.height, box.width⟩

/-- The solution with every box transposed and the same statistics. -/
def Solution.transpose (solution : Solution α) : Solution α :=
  ⟨solution.layout.map (Prod.map id Box.transpose), solution.stats⟩

theorem mirrorSlot_of_even {slot : Nat} (even : slot % 2 = 0) : mirrorSlot slot = slot + 1 :=
  if_pos even

theorem mirrorSlot_of_odd {slot : Nat} (odd : slot % 2 = 1) : mirrorSlot slot = slot - 1 :=
  if_neg (by omega)

@[simp] theorem mirrorSlot_mirrorSlot (slot : Nat) : mirrorSlot (mirrorSlot slot) = slot := by
  rcases Nat.mod_two_eq_zero_or_one slot with even | odd
  · rw [mirrorSlot_of_even even, mirrorSlot_of_odd (by omega), Nat.add_sub_cancel]
  · rw [mirrorSlot_of_odd odd, mirrorSlot_of_even (by omega)]
    omega

theorem mirrorSlot_injective : Function.Injective mirrorSlot :=
  Function.Involutive.injective mirrorSlot_mirrorSlot

theorem mirrorSlot_position (rank : Nat) (axis : Axis) :
    mirrorSlot (baseOf rank + axis.position) = baseOf rank + axis.cross.position := by
  have base := baseOf_mod rank
  cases axis with
  | x => exact mirrorSlot_of_even (by simp only [Axis.position]; omega)
  | y => exact mirrorSlot_of_odd (by simp only [Axis.position]; omega)

theorem mirrorSlot_extent (rank : Nat) (axis : Axis) :
    mirrorSlot (baseOf rank + axis.extent) = baseOf rank + axis.cross.extent := by
  have base := baseOf_mod rank
  cases axis with
  | x => exact mirrorSlot_of_even (by simp only [Axis.extent]; omega)
  | y => exact mirrorSlot_of_odd (by simp only [Axis.extent]; omega)

theorem mirrorSlot_lt {slot count : Nat} (h : slot < slotsPerEntity * count) :
    mirrorSlot slot < slotsPerEntity * count := by
  rw [slotsPerEntity] at h ⊢
  rcases Nat.mod_two_eq_zero_or_one slot with even | odd
  · rw [mirrorSlot_of_even even]
    omega
  · rw [mirrorSlot_of_odd odd]
    omega

/-- Entities stay where they are, and their axes are swapped. -/
def Relocation.transposition : Relocation where
  slot := mirrorSlot
  base := id
  axis := Axis.cross
  injective := mirrorSlot_injective
  position := mirrorSlot_position
  extent := mirrorSlot_extent
  cross _ := rfl

namespace Operator

theorem relocate_transposition (operator : Operator α) :
    operator.relocate .transposition = operator.transpose := by
  cases operator with
  | stack axis children container spacing alignment =>
      rw [relocate, transpose, Relocation.transposition, List.map_id]
      rfl
  | _ => rfl

theorem transpose_transpose (operator : Operator α) : operator.transpose.transpose = operator := by
  have spans : Span.transpose ∘ Span.transpose = id := by
    funext span
    simp only [Function.comp_apply, Span.transpose, mirrorSlot_mirrorSlot, id]
  have slots : mirrorSlot ∘ mirrorSlot = id := funext mirrorSlot_mirrorSlot
  cases operator with
  | alignNear positions => rw [transpose, transpose, List.map_map, slots, List.map_id]
  | alignFar entries => rw [transpose, transpose, List.map_map, spans, List.map_id]
  | alignCenter entries => rw [transpose, transpose, List.map_map, spans, List.map_id]
  | centerOn anchor entries =>
      have same : anchor.transpose.transpose = anchor := congrFun spans anchor
      rw [transpose, transpose, List.map_map, spans, List.map_id, same]
  | distribute entries spacing => rw [transpose, transpose, List.map_map, spans, List.map_id]
  | background child box padding => rfl
  | stack axis children container spacing alignment =>
      rw [transpose, transpose, Axis.cross_cross]

theorem onEntities_transpose {operator : Operator α} (placed : operator.OnEntities) :
    operator.transpose.OnEntities := by
  have spans {entries : List Span} (each : ∀ span ∈ entries, span.OnEntity) :
      ∀ span ∈ entries.map Span.transpose, span.OnEntity := by
    rw [List.forall_mem_map]
    intro span member
    obtain ⟨axis, rank, rfl⟩ := each span member
    refine ⟨axis.cross, rank, ?_⟩
    rw [Span.transpose, spanOf, mirrorSlot_position, mirrorSlot_extent, spanOf]
  cases operator with
  | alignNear positions =>
      rw [transpose, OnEntities, List.forall_mem_map]
      intro position member
      obtain ⟨axis, rank, rfl⟩ := placed position member
      exact ⟨axis.cross, rank, mirrorSlot_position rank axis⟩
  | alignFar entries => exact spans placed
  | alignCenter entries => exact spans placed
  | centerOn anchor entries =>
      have all := spans placed
      rwa [List.map_cons] at all
  | distribute entries spacing => exact spans placed
  | background child box padding => exact placed
  | stack axis children container spacing alignment => exact placed

theorem inside_transpose {operator : Operator α} (placed : operator.OnEntities) {count : Nat}
    (inside : operator.Inside (slotsPerEntity * count)) :
    operator.transpose.Inside (slotsPerEntity * count) := by
  intro slot used
  rw [← relocate_transposition, (perm_reads_relocate .transposition placed).mem_iff,
    (perm_slots_relocate .transposition placed).mem_iff, List.mem_map, List.mem_map] at used
  rcases used with ⟨old, read, rfl⟩ | ⟨old, own, rfl⟩
  · exact mirrorSlot_lt (inside old (.inl read))
  · exact mirrorSlot_lt (inside old (.inr own))

end Operator

theorem Scene.transpose_transpose (scene : Scene α) : scene.transpose.transpose = scene := by
  have records : Record.transpose ∘ Record.transpose = (id : Record α → Record α) := rfl
  have operators : Operator.transpose ∘ Operator.transpose = (id : Operator α → Operator α) :=
    funext Operator.transpose_transpose
  obtain ⟨records', operators'⟩ := scene
  simp only [transpose, List.map_map, records, operators, List.map_id]

theorem Scene.ids_transpose (scene : Scene α) : scene.transpose.ids = scene.ids := by
  rw [ids, transpose, List.map_map, ids]
  rfl

theorem Solution.transpose_transpose (solution : Solution α) :
    solution.transpose.transpose = solution := by
  have boxes : Prod.map id Box.transpose ∘ Prod.map id Box.transpose =
      (id : String × Box α → String × Box α) := rfl
  obtain ⟨layout, stats⟩ := solution
  simp only [transpose, List.map_map, boxes, List.map_id]

/-! ## Numbers and boxes -/

theorem boxAt_transpose {numbers image : Nat → α} (mirrored : image ∘ mirrorSlot = numbers)
    (rank : Nat) : boxAt image (baseOf rank) = (boxAt numbers (baseOf rank)).transpose := by
  subst mirrored
  have along (axis : Axis) := congrArg image (mirrorSlot_position rank axis)
  have extent (axis : Axis) := congrArg image (mirrorSlot_extent rank axis)
  have x := along .y
  have y := along .x
  have width := extent .y
  have height := extent .x
  simp only [Axis.position, Axis.extent, Axis.cross, Nat.add_zero] at x y width height
  simp only [boxAt, Box.transpose, Function.comp_apply, x, y, width, height]

/-- The layout of the transposed numbers has the transposed boxes, also where an id stands twice. -/
theorem ofList_layoutOf_transpose {numbers image : Nat → α}
    (mirrored : image ∘ mirrorSlot = numbers) (ids : List String) :
    Entries.ofList (layoutOf ids image) =
      (Entries.ofList (layoutOf ids numbers)).map (Prod.map id Box.transpose) := by
  have boxes : layoutOf ids image = (layoutOf ids numbers).map (Prod.map id Box.transpose) := by
    rw [layoutOf, layoutOf, List.mapIdx_eq_zipIdx_map, List.mapIdx_eq_zipIdx_map, List.map_map]
    simp only [boxAt_transpose mirrored]
    rfl
  rw [boxes, Entries.ofList_image Function.injective_id]

variable [Scalar α]

/-- The declared numbers are swapped along with the records. -/
theorem numbers_initial_transpose (records : List (Record α)) :
    (Scene.initial (records.map Record.transpose)).numbers ∘ mirrorSlot =
      (Scene.initial records).numbers := by
  induction records with
  | nil => rfl
  | cons record rest ih =>
      ext slot
      match slot with
      | 0 | 1 | 2 | 3 => rfl
      | slot + 4 =>
          have later : mirrorSlot (slot + 4) = mirrorSlot slot + 4 := by
            rcases Nat.mod_two_eq_zero_or_one slot with even | odd
            · rw [mirrorSlot_of_even even, mirrorSlot_of_even (by omega)]
            · rw [mirrorSlot_of_odd odd, mirrorSlot_of_odd (by omega)]
              omega
          rw [Function.comp_apply, later, List.map_cons, numbers_initial_cons, numbers_initial_cons]
          exact congrFun ih slot

/-! ## Laying out -/

variable [Scalar.OrdersPositives α]

theorem Scene.solve_transpose_of_ok {scene : Scene α}
    (placed : ∀ operator ∈ scene.operators, operator.OnEntities) {settings : Settings α}
    {solution : Solution α} (solved : scene.solve settings = .ok solution) :
    scene.transpose.solve settings = .ok solution.transpose := by
  have operators : scene.operators.map (Operator.relocate .transposition) =
      scene.transpose.operators := List.map_congr_left fun operator _ =>
    operator.relocate_transposition
  have whole : (initial scene.records).size = scene.slotCount := size_initial scene.records
  have whole' : (initial scene.transpose.records).size = scene.slotCount := by
    rw [size_initial, transpose, List.length_map, slotCount]
  have start := numbers_initial_transpose scene.records
  obtain ⟨final, image, stats, ran, ran', size, size', mirrored⟩ :
      ∃ final image stats,
        relax settings scene.operators (initial scene.records) = .ok (final, stats) ∧
        relax settings scene.transpose.operators (initial scene.transpose.records) =
          .ok (image, stats) ∧
        final.size = scene.slotCount ∧ image.size = scene.slotCount ∧
        image.numbers ∘ mirrorSlot = final.numbers := by
    cases ran : relax settings scene.operators (initial scene.records) with
    | error interruption =>
        rw [solve, ran] at solved
        cases solved
    | ok result =>
        rw [← ran]
        rcases idle_or_inside_of_relax placed whole ran with idle | inside
        · exact ⟨_, _, _, idle.relax_eq _ _, idle.relax_eq _ _, whole, whole', start⟩
        · have insideImage : ∀ operator ∈ scene.transpose.operators,
              operator.Inside (initial scene.transpose.records).size := by
            rw [whole', transpose, List.forall_mem_map]
            intro operator member
            have held := inside operator member
            rw [whole] at held
            exact Operator.inside_transpose (placed operator member) held
          rw [← operators] at insideImage ⊢
          obtain ⟨final, image, stats, first, second, size, size', mirrored, -⟩ :=
            relax_relocate .transposition settings placed inside insideImage start
          exact ⟨final, image, stats, first, second, size.trans whole, size'.trans whole', mirrored⟩
  have count : scene.transpose.slotCount = scene.slotCount := by
    rw [slotCount, transpose, List.length_map, slotCount]
  rw [solve_of_relax ran size] at solved
  cases solved
  rw [solve_of_relax ran' (size'.trans count.symm), ids_transpose,
    ofList_layoutOf_transpose mirrored]
  rfl

/-- Where all entries of operators are entities, the transposed scene is laid out exactly if the
scene is, whatever the settings, with the same statistics and with every box transposed. A scene
is laid out in any case if its operators stay inside its buffer. -/
theorem solve_transpose {scene : Scene α}
    (placed : ∀ operator ∈ scene.operators, operator.OnEntities) (settings : Settings α) :
    (∀ solution, scene.transpose.solve settings = .ok solution.transpose ↔
      scene.solve settings = .ok solution) ∧
    ((∀ operator ∈ scene.operators, operator.Inside scene.slotCount) →
      ∃ solution, scene.solve settings = .ok solution) := by
  constructor
  · intro solution
    constructor
    · intro solved
      have placed' : ∀ operator ∈ scene.transpose.operators, operator.OnEntities := by
        rw [Scene.transpose, List.forall_mem_map]
        exact fun operator member => Operator.onEntities_transpose (placed operator member)
      have again := Scene.solve_transpose_of_ok placed' solved
      rwa [scene.transpose_transpose, solution.transpose_transpose] at again
    · exact Scene.solve_transpose_of_ok placed
  · intro inside
    have size := Scene.size_initial scene.records
    rw [Scene.slotCount, ← size] at inside
    obtain ⟨_, final, ran, finalSize, -⟩ := Relaxation.relax_eq_ok inside settings
    exact ⟨_, Scene.solve_of_relax ran (finalSize.trans size)⟩

/-- Two boxes in a column, a frame around the first one, and a label whose left edge is spread
between theirs. -/
def framedColumn : Scene Float where
  records :=
    [{ id := "top", kind := .rect, x := 3, y := 0, width := 20, height := 10 },
      { id := "bottom", kind := .rect, x := 0, y := 7, width := 12, height := 12 },
      { id := "column", kind := .none, x := 0, y := 0, width := 0, height := 0 },
      { id := "frame", kind := .rect, x := 0, y := 0, width := 0, height := 0 },
      { id := "label", kind := .text, x := 1, y := 1, width := 24, height := 16 }]
  operators :=
    [.stack .y [0, 4] 8 2 .center, .background 0 12 1.5,
      .distribute [⟨0, 2⟩, ⟨16, 18⟩, ⟨4, 6⟩] 0, .alignNear [1, 17]]

/-- The column becomes a row, and what was spread along the first axis is spread along the second,
also where operators move what another one has moved. -/
theorem solve_transpose_framedColumn :
    (∀ operator ∈ framedColumn.operators, operator.OnEntities) ∧
      ∀ settings, ∃ solution, framedColumn.solve settings = .ok solution ∧
        framedColumn.transpose.solve settings = .ok solution.transpose := by
  have placed : ∀ operator ∈ framedColumn.operators, operator.OnEntities := by
    simp only [framedColumn, List.forall_mem_cons, Operator.OnEntities]
    exact ⟨⟨⟨2, rfl⟩, ⟨0, rfl⟩, ⟨1, rfl⟩, List.forall_mem_nil _⟩,
      ⟨⟨0, rfl⟩, ⟨3, rfl⟩, List.forall_mem_nil _⟩,
      ⟨⟨.x, 0, rfl⟩, ⟨.x, 4, rfl⟩, ⟨.x, 1, rfl⟩, List.forall_mem_nil _⟩,
      ⟨⟨.y, 0, rfl⟩, ⟨.y, 4, rfl⟩, List.forall_mem_nil _⟩, List.forall_mem_nil _⟩
  have inside : ∀ operator ∈ framedColumn.operators, operator.Inside framedColumn.slotCount := by
    decide
  refine ⟨placed, fun settings => ?_⟩
  obtain ⟨mirrored, solvable⟩ := solve_transpose placed settings
  obtain ⟨solution, solved⟩ := solvable inside
  exact ⟨solution, solved, (mirrored solution).mpr solved⟩

end SceneLayout
