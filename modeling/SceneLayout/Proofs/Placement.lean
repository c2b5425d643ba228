import SceneLayout.Proofs.Exact
import SceneLayout.Scene.Compile

/-!
# Operators on whole entities

Compilation only builds operators whose entries are entities: four consecutive slots from
a multiple of four on, positions before extents. If the entries of such an operator are
distinct, then every proposal is for a slot of its own, the slots of extents are told
apart from those of positions, and an operator that has moved its positions to its own
proposals proposes the same ones again.

Main statements: `target_of_mem_proposed`, `proposed_again`.
-/

namespace SceneLayout

universe u

variable {α : Type u}

open Scalar

/-- The slot holds an extent of its entity, not a position. -/
def IsExtent (slot : Nat) : Prop := 2 ≤ slot % slotsPerEntity

/-- The span belongs to an entity. -/
def Span.OnEntity (span : Span) : Prop := ∃ axis rank, span = spanOf axis rank

theorem baseOf_mod (rank : Nat) : baseOf rank % 4 = 0 := Nat.mul_mod_right 4 rank

theorem bases_mod {bases : List Nat} (placed : ∀ base ∈ bases, ∃ rank, base = baseOf rank) :
    ∀ base ∈ bases, base % 4 = 0 := by
  intro base member
  obtain ⟨rank, rfl⟩ := placed base member
  exact baseOf_mod rank

theorem Span.OnEntity.position_mod {span : Span} (h : span.OnEntity) : span.position % 4 < 2 := by
  obtain ⟨axis, rank, rfl⟩ := h
  have base := baseOf_mod rank
  cases axis <;> simp only [spanOf, Axis.position] <;> omega

theorem Span.OnEntity.isExtent {span : Span} (h : span.OnEntity) : IsExtent span.extent := by
  obtain ⟨axis, rank, rfl⟩ := h
  have base := baseOf_mod rank
  cases axis <;> simp only [IsExtent, slotsPerEntity, spanOf, Axis.extent] <;> omega

/-- Spans of entities are told apart by their positions. -/
theorem Span.OnEntity.eq_of_position_eq {first second : Span} (h : first.OnEntity)
    (k : second.OnEntity) (same : first.position = second.position) : first = second := by
  obtain ⟨axis, rank, rfl⟩ := h
  obtain ⟨axis', rank', rfl⟩ := k
  have base := baseOf_mod rank
  have base' := baseOf_mod rank'
  cases axis <;> cases axis' <;>
    simp only [spanOf, Axis.position, Axis.extent, Span.mk.injEq] at same ⊢ <;>
    omega

theorem nodup_positions {spans : List Span} (placed : ∀ span ∈ spans, span.OnEntity)
    (distinct : spans.Nodup) : (spans.map Span.position).Nodup := by
  apply distinct.map_on
  intro first inFirst second inSecond same
  exact (placed first inFirst).eq_of_position_eq (placed second inSecond) same

/-- No span of an entity has its position where an extent is. -/
theorem not_mem_positions_of_isExtent {spans : List Span} (placed : ∀ span ∈ spans, span.OnEntity)
    {slot : Nat} (extent : IsExtent slot) : slot ∉ spans.map Span.position := by
  intro listed
  obtain ⟨span, member, rfl⟩ := List.mem_map.mp listed
  have position := (placed span member).position_mod
  simp only [IsExtent, slotsPerEntity] at extent
  omega

namespace Operator

/-- Every entry of the operator is an entity. -/
def OnEntities : Operator α → Prop
  | alignNear positions => ∀ position ∈ positions, ∃ axis rank,
      position = baseOf rank + Axis.position axis
  | alignFar spans => ∀ span ∈ spans, span.OnEntity
  | alignCenter spans => ∀ span ∈ spans, span.OnEntity
  | centerOn anchor spans => ∀ span ∈ anchor :: spans, span.OnEntity
  | distribute spans _ => ∀ span ∈ spans, span.OnEntity
  | background child box _ => ∀ base ∈ [child, box], ∃ rank, base = baseOf rank
  | stack _ children container _ _ => ∀ base ∈ container :: children, ∃ rank, base = baseOf rank

/-- No entry of the operator is listed twice, the anchor and the container included. -/
def DistinctEntries : Operator α → Prop
  | alignNear positions => positions.Nodup
  | alignFar spans => spans.Nodup
  | alignCenter spans => spans.Nodup
  | centerOn anchor spans => (anchor :: spans).Nodup
  | distribute spans _ => spans.Nodup
  | background child box _ => child ≠ box
  | stack _ children container _ _ => (container :: children).Nodup

/-- The anchor is not placed by the operator that centers other spans on it. -/
theorem anchor_not_mem_slots {anchor : Span} {spans : List Span}
    (placed : (centerOn anchor spans : Operator α).OnEntities)
    (distinct : (centerOn anchor spans : Operator α).DistinctEntries) :
    anchor.position ∉ (centerOn anchor spans : Operator α).slots := by
  intro own
  obtain ⟨span, listed, same⟩ := List.mem_map.mp own
  have equal := (placed span (List.mem_cons_of_mem _ listed)).eq_of_position_eq
    (placed anchor List.mem_cons_self) same
  exact (List.nodup_cons.mp distinct).1 (equal ▸ listed)

/-- A box is told apart from its child. -/
theorem not_mem_slots_of_mem_reads_background {child box : Nat} {padding : α}
    (placed : (background child box padding).OnEntities)
    (distinct : (background child box padding).DistinctEntries) {slot : Nat}
    (read : slot ∈ (background child box padding).reads) :
    slot ∉ (background child box padding).slots := by
  have multiple := bases_mod placed
  have childMultiple := multiple child (by simp)
  have boxMultiple := multiple box (by simp)
  have apart : child ≠ box := distinct
  intro inBox
  obtain ⟨offset, _, atChild⟩ := mem_four.mp read
  obtain ⟨offset', _, atBox⟩ := mem_four.mp inBox
  omega

/-- The extents of the children of a stack are read and not set by it. -/
theorem extent_mem_reads_stack {axis : Axis} {children : List Nat} {container : Nat}
    {spacing : α} {alignment : Alignment}
    (placed : (stack axis children container spacing alignment).OnEntities)
    (distinct : (stack axis children container spacing alignment).DistinctEntries)
    {base : Nat} (member : base ∈ children) (direction : Axis) :
    base + direction.extent ∈ (stack axis children container spacing alignment).reads ∧
      IsExtent (base + direction.extent) ∧
      base + direction.extent ∉ (stack axis children container spacing alignment).slots := by
  have multiple := bases_mod placed
  have baseMultiple := multiple base (List.mem_cons_of_mem _ member)
  have containerMultiple := multiple container List.mem_cons_self
  have different : base ≠ container := fun equal => (List.nodup_cons.mp distinct).1 (equal ▸ member)
  refine ⟨?_, ?_, ?_⟩
  · refine mem_reads_stack.mpr (.inr ⟨base, member, ?_⟩)
    cases axis <;> cases direction <;> simp [Axis.extent, Axis.cross]
  · simp only [IsExtent, slotsPerEntity]
    cases direction <;> simp only [Axis.extent] <;> omega
  · rw [mem_slots_stack]
    rintro (⟨child, listed, atChild⟩ | atContainer)
    · have childMultiple := multiple child (List.mem_cons_of_mem _ listed)
      cases axis <;> cases direction <;>
        simp only [Axis.position, Axis.extent, Axis.cross] at atChild <;> omega
    · cases axis <;> cases direction <;>
        simp only [Axis.extent, Axis.cross] at atContainer <;> omega

theorem nodup_slots {operator : Operator α} (placed : operator.OnEntities)
    (distinct : operator.DistinctEntries) : operator.slots.Nodup := by
  cases operator with
  | alignNear positions => exact distinct
  | alignFar spans => exact nodup_positions placed distinct
  | alignCenter spans => exact nodup_positions placed distinct
  | centerOn anchor spans =>
      have rest := (List.nodup_cons.mp distinct).2
      exact nodup_positions (fun span member => placed span (List.mem_cons_of_mem _ member)) rest
  | distribute spans spacing => exact nodup_positions placed distinct
  | background child box padding => simp [slots]
  | stack axis children container spacing alignment =>
      obtain ⟨apart, distinct⟩ := List.nodup_cons.mp distinct
      have multiple := bases_mod placed
      rw [slots, List.nodup_append']
      refine ⟨?_, ?_, ?_⟩
      · rw [List.nodup_flatMap]
        refine ⟨fun base _ => by cases axis <;> simp [Axis.position, Axis.cross], ?_⟩
        apply distinct.imp_of_mem
        intro first second inFirst inSecond different slot atFirst atSecond
        have firstMultiple := multiple first (List.mem_cons_of_mem _ inFirst)
        have secondMultiple := multiple second (List.mem_cons_of_mem _ inSecond)
        simp only [List.mem_cons, List.not_mem_nil, or_false] at atFirst atSecond
        cases axis <;> simp only [Axis.position, Axis.cross] at atFirst atSecond <;> omega
      · cases axis <;> simp [Axis.extent, Axis.cross]
      · intro slot inChildren inContainer
        obtain ⟨base, member, atBase⟩ := List.mem_flatMap.mp inChildren
        have baseMultiple := multiple base (List.mem_cons_of_mem _ member)
        have containerMultiple := multiple container List.mem_cons_self
        simp only [List.mem_cons, List.not_mem_nil, or_false] at atBase inContainer
        cases axis <;>
          simp only [Axis.position, Axis.extent, Axis.cross] at atBase inContainer <;> omega

variable [Scalar α]

/-- Every slot that the operator proposes for is given its one proposal. -/
theorem target_of_mem_proposed {operator : Operator α} (placed : operator.OnEntities)
    (distinct : operator.DistinctEntries) {numbers : Nat → α} {slot : Nat} {value : α}
    (h : (slot, value) ∈ operator.proposed numbers) : operator.target numbers slot = value := by
  have nodup := nodup_slots placed distinct
  apply written_of_mem _ h
  rcases map_fst_proposed operator with same | backwards | empty
  · rwa [same]
  · rw [backwards]
    exact List.nodup_reverse.mpr nodup
  · rw [empty] at h
    cases h

theorem target_eq_of_mem_proposed {operator : Operator α} (placed : operator.OnEntities)
    (distinct : operator.DistinctEntries) {numbers other : Nat → α} {slot : Nat} {value : α}
    (h : (slot, value) ∈ operator.proposed numbers)
    (k : (slot, value) ∈ operator.proposed other) :
    operator.target numbers slot = operator.target other slot := by
  rw [target_of_mem_proposed placed distinct h, target_of_mem_proposed placed distinct k]

/-! ## Extents -/

/-- The extents of a box depend only on those of the child. -/
theorem target_background_extent_congr {child box : Nat} {padding : α}
    (placed : (background child box padding).OnEntities)
    (distinct : (background child box padding).DistinctEntries) {numbers other : Nat → α}
    (width : numbers (child + 2) = other (child + 2))
    (height : numbers (child + 3) = other (child + 3)) {offset : Nat} (low : 2 ≤ offset)
    (high : offset < 4) :
    (background child box padding).target numbers (box + offset) =
      (background child box padding).target other (box + offset) := by
  have cases : offset = 2 ∨ offset = 3 := by omega
  rcases cases with rfl | rfl
  · apply target_eq_of_mem_proposed placed distinct
      (show (_, numbers (child + 2) + padding * nat 2) ∈ _ by simp [proposed])
    simp [proposed, width]
  · apply target_eq_of_mem_proposed placed distinct
      (show (_, numbers (child + 3) + padding * nat 2) ∈ _ by simp [proposed])
    simp [proposed, height]

/-- The extents of a container depend only on those of the children. -/
theorem target_stack_extent_congr {axis : Axis} {children : List Nat} {container : Nat}
    {spacing : α} {alignment : Alignment}
    (placed : (stack axis children container spacing alignment).OnEntities)
    (distinct : (stack axis children container spacing alignment).DistinctEntries)
    {numbers other : Nat → α}
    (same : ∀ base ∈ children, ∀ direction : Axis,
      numbers (base + direction.extent) = other (base + direction.extent)) {slot : Nat}
    (extent : slot = container + axis.extent ∨ slot = container + axis.cross.extent) :
    (stack axis children container spacing alignment).target numbers slot =
      (stack axis children container spacing alignment).target other slot := by
  have finish := stackEnd_congr (fun base member => same base member axis) spacing (nat 0)
  have widest := stackWidest_congr (fun base member => same base member axis.cross) (nat 0)
  rcases extent with rfl | rfl
  · apply target_eq_of_mem_proposed placed distinct
      (show (_, if children.isEmpty then nat 0
        else stackEnd numbers axis spacing (nat 0) children - spacing) ∈ _ by simp [proposed])
    simp [proposed, finish]
  · apply target_eq_of_mem_proposed placed distinct
      (show (_, stackWidest numbers axis (nat 0) children) ∈ _ by simp [proposed])
    simp [proposed, widest]

/-- An extent that the operator sets depends only on extents that it reads and does not own. -/
theorem target_extent_congr {operator : Operator α} (placed : operator.OnEntities)
    (distinct : operator.DistinctEntries) {numbers other : Nat → α}
    (agree : ∀ slot ∈ operator.reads, IsExtent slot → slot ∉ operator.slots →
      numbers slot = other slot)
    {slot : Nat} (own : slot ∈ operator.slots) (extent : IsExtent slot) :
    operator.target numbers slot = operator.target other slot := by
  cases operator with
  | alignNear positions =>
      obtain ⟨axis, rank, rfl⟩ := placed slot own
      have base := baseOf_mod rank
      simp only [IsExtent, slotsPerEntity] at extent
      cases axis <;> simp only [Axis.position] at extent <;> omega
  | alignFar spans => exact absurd own (not_mem_positions_of_isExtent placed extent)
  | alignCenter spans => exact absurd own (not_mem_positions_of_isExtent placed extent)
  | centerOn anchor spans =>
      have onEntity := fun span member => placed span (List.mem_cons_of_mem anchor member)
      exact absurd own (not_mem_positions_of_isExtent onEntity extent)
  | distribute spans spacing => exact absurd own (not_mem_positions_of_isExtent placed extent)
  | background child box padding =>
      have multiple := bases_mod placed
      have childMultiple := multiple child (by simp)
      have boxMultiple := multiple box (by simp)
      have same : ∀ offset, 2 ≤ offset → offset < 4 →
          numbers (child + offset) = other (child + offset) := by
        intro offset low high
        have read : child + offset ∈ (background child box padding).reads :=
          mem_four.mpr ⟨offset, high, rfl⟩
        apply agree _ read _ (not_mem_slots_of_mem_reads_background placed distinct read)
        simp only [IsExtent, slotsPerEntity]
        omega
      obtain ⟨offset, high, rfl⟩ := mem_four.mp own
      have low : 2 ≤ offset := by
        simp only [IsExtent, slotsPerEntity] at extent
        omega
      exact target_background_extent_congr placed distinct (same 2 (by decide) (by decide))
        (same 3 (by decide) (by decide)) low high
  | stack axis children container spacing alignment =>
      have fromContainer : slot = container + axis.extent ∨
          slot = container + axis.cross.extent := by
        refine (mem_slots_stack.mp own).resolve_left ?_
        rintro ⟨base, member, atBase⟩
        have baseMultiple := bases_mod placed base (List.mem_cons_of_mem _ member)
        simp only [IsExtent, slotsPerEntity] at extent
        cases axis <;> simp only [Axis.position, Axis.cross] at atBase <;> omega
      apply target_stack_extent_congr placed distinct _ fromContainer
      intro base member direction
      obtain ⟨read, isExtent, foreign⟩ := extent_mem_reads_stack placed distinct member direction
      exact agree _ read isExtent foreign

/-! ## Proposing again

Exact arithmetic is used from here on. -/

theorem lowest_eq_of_forall {values : List ℚ} {a : ℚ} (some : values ≠ [])
    (h : ∀ b ∈ values, b = a) : lowest values = a :=
  h _ (lowest_mem some)

theorem highest_eq_of_forall {values : List ℚ} {a : ℚ} (some : values ≠ [])
    (h : ∀ b ∈ values, b = a) : highest values = a :=
  h _ (highest_mem some)

/-- Centers that are all at one place have their mean there. -/
theorem meanCenter_eq_of_forall {numbers : Nat → ℚ} {spans : List Span} {center : ℚ}
    (some : spans ≠ []) (h : ∀ span ∈ spans, centerOf numbers span = center) :
    meanCenter numbers spans = center := by
  have total : ∀ sum : ℚ, spans.foldl (fun sum span => sum + centerOf numbers span) sum =
      sum + spans.length * center := by
    clear some
    induction spans with
    | nil => simp
    | cons span rest ih =>
        intro sum
        rw [List.foldl_cons, ih (fun other member => h other (List.mem_cons_of_mem _ member)),
          h span List.mem_cons_self, List.length_cons]
        push_cast
        ring
  have count : (spans.length : ℚ) ≠ 0 := by
    rw [Nat.cast_ne_zero]
    exact fun none => some (List.length_eq_zero_iff.mp none)
  rw [meanCenter, total, nat_eq_cast, nat_eq_cast, Nat.cast_zero, zero_add]
  exact mul_div_cancel_left₀ center count

theorem getElem?_spreadProposals (first step : ℚ) (index : Nat) (spans : List Span) (k : Nat) :
    (spreadProposals first step index spans)[k]? =
      spans[k]?.map fun span => (span.position, first + ((index + k : Nat) : ℚ) * step) := by
  induction spans generalizing index k with
  | nil => rfl
  | cons span rest ih =>
      cases k with
      | zero => simp [spreadProposals]
      | succ k =>
          rw [spreadProposals, List.getElem?_cons_succ, List.getElem?_cons_succ, ih]
          have shift : index + 1 + k = index + (k + 1) := by omega
          rw [shift]

theorem lowest_le_highest {values : List ℚ} : lowest values ≤ highest values := by
  cases values with
  | nil => exact le_rfl
  | cons first rest => exact lowest_le (highest_mem (List.cons_ne_nil first rest))

theorem spreadStep_nonneg (values : List ℚ) : 0 ≤ spreadStep values :=
  div_nonneg (sub_nonneg.mpr lowest_le_highest) (Nat.cast_nonneg _)

/-- The last of two or more spread places is the highest one. -/
theorem lowest_add_steps {values : List ℚ} (two : 2 ≤ values.length) :
    lowest values + ((values.length - 1 : Nat) : ℚ) * spreadStep values = highest values := by
  have count : ((values.length - 1 : Nat) : ℚ) ≠ 0 := by
    rw [Nat.cast_ne_zero]
    omega
  rw [spreadStep, nat_eq_cast, mul_div_cancel₀ _ count]
  ring

/-- Spread places are spread between the same ends again. -/
theorem spread_again {values places : List ℚ} (two : 2 ≤ values.length)
    (length : places.length = values.length)
    (spread : ∀ k (h : k < places.length),
      places[k] = lowest values + (k : ℚ) * spreadStep values) :
    lowest places = lowest values ∧ highest places = highest values := by
  have some : places ≠ [] := by
    rintro rfl
    rw [List.length_nil] at length
    omega
  have step := spreadStep_nonneg values
  have within : ∀ place ∈ places, lowest values ≤ place ∧ place ≤ highest values := by
    intro place member
    obtain ⟨k, inside, rfl⟩ := List.mem_iff_getElem.mp member
    rw [spread k inside, ← lowest_add_steps two]
    have few : (k : ℚ) ≤ ((values.length - 1 : Nat) : ℚ) := by
      rw [Nat.cast_le]
      omega
    have steps := mul_le_mul_of_nonneg_right few step
    have forward := mul_nonneg (Nat.cast_nonneg (α := ℚ) k) step
    constructor <;> linarith
  constructor
  · apply le_antisymm _ (within _ (lowest_mem some)).1
    have inside : 0 < places.length := List.length_pos_iff.mpr some
    have first := spread 0 inside
    rw [Nat.cast_zero, zero_mul, add_zero] at first
    rw [← first]
    exact lowest_le (List.getElem_mem inside)
  · apply le_antisymm (within _ (highest_mem some)).2
    have inside : values.length - 1 < places.length := by omega
    rw [← lowest_add_steps two, ← spread _ inside]
    exact le_highest (List.getElem_mem inside)

section Again

variable {numbers other : Nat → ℚ} {spans : List Span}

theorem proposed_alignNear_again {positions : List Nat}
    (taken : ∀ entry ∈ (alignNear positions).proposed numbers, other entry.1 = entry.2) :
    (alignNear positions).proposed other = (alignNear positions).proposed numbers := by
  by_cases some : positions = []
  · rw [some]
    rfl
  have values : lowest (positions.map other) = lowest (positions.map numbers) := by
    apply lowest_eq_of_forall (fun none => some (List.map_eq_nil_iff.mp none))
    intro value member
    obtain ⟨position, listed, rfl⟩ := List.mem_map.mp member
    exact taken _ (List.mem_map_of_mem listed)
  simp only [proposed, values]

theorem proposed_alignFar_again
    (taken : ∀ entry ∈ (alignFar spans).proposed numbers, other entry.1 = entry.2)
    (extents : ∀ span ∈ spans, other span.extent = numbers span.extent) :
    (alignFar spans).proposed other = (alignFar spans).proposed numbers := by
  by_cases some : spans = []
  · rw [some]
    rfl
  have edge : highest (spans.map (farEdge other)) = highest (spans.map (farEdge numbers)) := by
    apply highest_eq_of_forall (fun none => some (List.map_eq_nil_iff.mp none))
    intro value member
    obtain ⟨span, listed, rfl⟩ := List.mem_map.mp member
    have place := taken _ (List.mem_map_of_mem listed)
    rw [farEdge, place, extents span listed, sub_add_cancel]
  simp only [proposed, edge]
  apply List.map_congr_left
  intro span member
  rw [extents span member]

theorem proposed_alignCenter_again
    (taken : ∀ entry ∈ (alignCenter spans).proposed numbers, other entry.1 = entry.2)
    (extents : ∀ span ∈ spans, other span.extent = numbers span.extent) :
    (alignCenter spans).proposed other = (alignCenter spans).proposed numbers := by
  by_cases some : spans = []
  · rw [some]
    rfl
  have mean : meanCenter other spans = meanCenter numbers spans := by
    apply meanCenter_eq_of_forall some
    intro span listed
    have place := taken _ (List.mem_map_of_mem listed)
    rw [centerOf, place, extents span listed, sub_add_cancel]
  simp only [proposed, mean]
  exact centered_congr extents _

theorem proposed_distribute_again {spacing : ℚ}
    (taken : ∀ entry ∈ (distribute spans spacing).proposed numbers, other entry.1 = entry.2)
    (extents : ∀ span ∈ spans, other span.extent = numbers span.extent) :
    (distribute spans spacing).proposed other = (distribute spans spacing).proposed numbers := by
  simp only [proposed] at taken ⊢
  by_cases few : spans.length < 2
  · rw [if_pos few, if_pos few]
  simp only [if_neg few] at taken ⊢
  by_cases apart : lt (nat 0) spacing
  · simp only [if_pos apart] at taken ⊢
    cases backwards : spans.reverse with
    | nil => rfl
    | cons last rest =>
        simp only [backwards] at taken
        have place : other last.position = numbers last.position := taken _ List.mem_cons_self
        have among : ∀ span ∈ rest, span ∈ spans := by
          intro span member
          rw [← List.mem_reverse, backwards]
          exact List.mem_cons_of_mem _ member
        simp only [place]
        rw [spaced_congr fun span member => extents span (among span member)]
  · simp only [if_neg apart] at taken ⊢
    set values := spans.map fun span => numbers span.position with before
    set places := spans.map fun span => other span.position with after
    have two : 2 ≤ values.length := by
      rw [before, List.length_map]
      omega
    have length : places.length = values.length := by
      rw [before, after, List.length_map, List.length_map]
    have spread : ∀ k (h : k < places.length),
        places[k] = lowest values + (k : ℚ) * spreadStep values := by
      intro k inside
      have inSpans : k < spans.length := by rwa [after, List.length_map] at inside
      have place : (spreadProposals (lowest values) (spreadStep values) 0 spans)[k]? =
          some (spans[k].position, lowest values + (k : ℚ) * spreadStep values) := by
        rw [getElem?_spreadProposals, List.getElem?_eq_getElem inSpans, Nat.zero_add]
        rfl
      simp only [after, List.getElem_map]
      exact taken _ (List.mem_of_getElem? place)
    obtain ⟨low, high⟩ := spread_again two length spread
    have step : spreadStep places = spreadStep values := by
      rw [spreadStep, spreadStep, low, high, length]
    rw [low, step]

end Again

/-- An operator whose slots hold its own proposals proposes them again, if the extents and what it
does not own are as before. -/
theorem proposed_again {operator : Operator ℚ} (placed : operator.OnEntities)
    (distinct : operator.DistinctEntries) {numbers other : Nat → ℚ}
    (moved : ∀ slot ∈ operator.slots, other slot = operator.target numbers slot)
    (kept : ∀ slot ∈ operator.reads, IsExtent slot ∨ slot ∉ operator.slots →
      other slot = numbers slot) :
    operator.proposed other = operator.proposed numbers := by
  have taken : ∀ entry ∈ operator.proposed numbers, other entry.1 = entry.2 := by
    intro entry proposal
    rw [moved entry.1 (mem_slots_of_mem_proposed proposal)]
    exact target_of_mem_proposed placed distinct proposal
  have extents : ∀ {spans : List Span}, (∀ span ∈ spans, span.OnEntity) →
      (∀ slot ∈ reads.both spans, slot ∈ operator.reads) →
      ∀ span ∈ spans, other span.extent = numbers span.extent := by
    intro spans onEntity read span member
    have isRead := (forall_mem_both.mp read span member).2
    exact kept _ isRead (.inl (onEntity span member).isExtent)
  cases operator with
  | alignNear positions => exact proposed_alignNear_again taken
  | alignFar spans => exact proposed_alignFar_again taken (extents placed fun _ => id)
  | alignCenter spans => exact proposed_alignCenter_again taken (extents placed fun _ => id)
  | centerOn anchor spans =>
      have extent := extents placed fun _ => id
      have stays : other anchor.position = numbers anchor.position := by
        apply kept _ (by simp [reads, reads.both])
        exact .inr (anchor_not_mem_slots placed distinct)
      have center : centerOf other anchor = centerOf numbers anchor := by
        rw [centerOf, centerOf, stays, extent anchor List.mem_cons_self]
      simp only [proposed, center]
      exact centered_congr (fun span member => extent span (List.mem_cons_of_mem _ member)) _
  | distribute spans spacing =>
      exact proposed_distribute_again taken (extents placed fun _ => id)
  | background child box padding =>
      apply proposed_congr
      intro slot read
      exact kept slot read (.inr (not_mem_slots_of_mem_reads_background placed distinct read))
  | stack axis children container spacing alignment =>
      apply proposed_congr
      intro slot read
      apply kept slot read
      left
      have ofBase : ∃ base ∈ container :: children, ∃ direction : Axis,
          slot = base + direction.extent := by
        rcases mem_reads_stack.mp read with atContainer | ⟨base, member, along | across⟩
        · exact ⟨container, List.mem_cons_self, axis.cross, atContainer⟩
        · exact ⟨base, List.mem_cons_of_mem _ member, axis, along⟩
        · exact ⟨base, List.mem_cons_of_mem _ member, axis.cross, across⟩
      obtain ⟨base, member, direction, rfl⟩ := ofBase
      have baseMultiple := bases_mod placed base member
      simp only [IsExtent, slotsPerEntity]
      cases direction <;> simp only [Axis.extent] <;> omega

/-- So its slots are where it wants them. -/
theorem target_again {operator : Operator ℚ} (placed : operator.OnEntities)
    (distinct : operator.DistinctEntries) {numbers other : Nat → ℚ}
    (moved : ∀ slot ∈ operator.slots, other slot = operator.target numbers slot)
    (kept : ∀ slot ∈ operator.reads, IsExtent slot ∨ slot ∉ operator.slots →
      other slot = numbers slot) {slot : Nat} (own : slot ∈ operator.slots) :
    operator.target other slot = operator.target numbers slot := by
  have same := proposed_again placed distinct moved kept
  by_cases listed : slot ∈ (operator.proposed numbers).map Prod.fst
  · rw [target, target, same]
    exact written_congr fun absent => absurd listed absent
  · rw [target, same, written_of_not_mem listed]
    exact moved slot own

end Operator

end SceneLayout
