import Mathlib.Data.List.Basic
import SceneLayout.Scene.Operator

/-!
# Evaluation of operators as a function of slots

Inside a buffer no slot is missing, so an operator can be evaluated on the numbers
that stand at the slots, without any failure. `proposed` lists the same proposals as
`proposals`, `target` is what every slot would hold if all of them were taken over.
Both depend on nothing but the numbers at the slots that the operator reads, and the
only slots they name are those that the operator owns.

## Implementation notes

No law of arithmetic is used, so everything here holds of doubles as well.
-/

namespace SceneLayout

universe u

variable {α : Type u}

open Scalar

/-- A step that succeeds on every member of a list succeeds on the list. -/
theorem mapM_eq_ok {β γ : Type*} {ε : Type*} {f : β → Except ε γ} {g : β → γ} {items : List β}
    (h : ∀ item ∈ items, f item = .ok (g item)) : items.mapM f = .ok (items.map g) := by
  induction items with
  | nil => rfl
  | cons item rest ih =>
      have first := h item (by simp)
      have others := ih fun other member => h other (by simp [member])
      rw [List.mapM_cons, first, others]
      rfl

namespace Buffer

variable [Scalar α]

/-- The number at every slot; slots outside the buffer hold zero. -/
def numbers (buffer : Buffer α) (slot : Nat) : α := buffer.getD slot (nat 0)

theorem getElem?_eq_numbers {buffer : Buffer α} {slot : Nat} (h : slot < buffer.size) :
    buffer[slot]? = some (buffer.numbers slot) := by
  simp [numbers, h]

theorem read_eq_ok {buffer : Buffer α} {slot : Nat} (h : slot < buffer.size) :
    read buffer slot = .ok (buffer.numbers slot) :=
  read_eq_ok_iff.mpr (getElem?_eq_numbers h)

theorem numbers_set {buffer : Buffer α} {slot : Nat} (h : slot < buffer.size) (value : α) :
    numbers (buffer.set slot value h) = Function.update buffer.numbers slot value := by
  ext other
  by_cases same : other = slot
  · subst same
    simp [numbers, h]
  · have apart : slot ≠ other := fun equal => same equal.symm
    simp [numbers, Function.update_of_ne same, apart]

theorem write_eq_ok {buffer : Buffer α} {slot : Nat} (h : slot < buffer.size) (value : α) :
    ∃ result, write buffer slot value = .ok result ∧ result.size = buffer.size ∧
      result.numbers = Function.update buffer.numbers slot value := by
  refine ⟨buffer.set slot value h, ?_, by simp, numbers_set h value⟩
  simp [write, h]

/-- Buffers of one length hold the same at a slot if their numbers there are the same. -/
theorem getElem?_eq_of_numbers_eq {a b : Buffer α} (size : a.size = b.size) {slot : Nat}
    (h : a.numbers slot = b.numbers slot) : a[slot]? = b[slot]? := by
  by_cases inA : slot < a.size
  · have inB : slot < b.size := size ▸ inA
    rw [getElem?_eq_numbers inA, getElem?_eq_numbers inB, h]
  · have outB : ¬ slot < b.size := size ▸ inA
    rw [Array.getElem?_eq_none (Nat.le_of_not_lt inA),
      Array.getElem?_eq_none (Nat.le_of_not_lt outB)]

/-- Buffers of one length with the same numbers are the same. -/
theorem eq_of_numbers_eq {a b : Buffer α} (size : a.size = b.size) (h : a.numbers = b.numbers) :
    a = b := by
  apply Array.ext size
  intro slot inA inB
  have same := congrFun h slot
  simpa [numbers, inA, inB] using same

end Buffer

/-- The numbers after entries have been written one after the other. -/
def written (entries : List (Nat × α)) (numbers : Nat → α) : Nat → α :=
  entries.foldl (fun numbers entry => Function.update numbers entry.1 entry.2) numbers

@[simp] theorem written_nil (numbers : Nat → α) : written [] numbers = numbers := rfl

theorem written_cons (entry : Nat × α) (entries : List (Nat × α)) (numbers : Nat → α) :
    written (entry :: entries) numbers =
      written entries (Function.update numbers entry.1 entry.2) := rfl

/-- Slots that no entry names keep their numbers. -/
theorem written_of_not_mem {entries : List (Nat × α)} {slot : Nat}
    (h : slot ∉ entries.map Prod.fst) (numbers : Nat → α) :
    written entries numbers slot = numbers slot := by
  induction entries generalizing numbers with
  | nil => rfl
  | cons entry rest ih =>
      rw [List.map_cons, List.mem_cons, not_or] at h
      rw [written_cons, ih h.2, Function.update_of_ne h.1]

/-- What a named slot holds does not depend on what it held before. -/
theorem written_congr {entries : List (Nat × α)} {slot : Nat} {first second : Nat → α}
    (h : slot ∉ entries.map Prod.fst → first slot = second slot) :
    written entries first slot = written entries second slot := by
  induction entries generalizing first second with
  | nil => exact h (by simp)
  | cons entry rest ih =>
      rw [written_cons, written_cons]
      apply ih
      intro absent
      by_cases same : slot = entry.1
      · subst same
        rw [Function.update_self, Function.update_self]
      · rw [Function.update_of_ne same, Function.update_of_ne same]
        exact h (by simp [same, absent])

/-- A slot that one entry names holds the number of that entry. -/
theorem written_of_mem {entries : List (Nat × α)} (distinct : (entries.map Prod.fst).Nodup)
    {slot : Nat} {value : α} (h : (slot, value) ∈ entries) (numbers : Nat → α) :
    written entries numbers slot = value := by
  induction entries generalizing numbers with
  | nil => cases h
  | cons entry rest ih =>
      rw [List.map_cons, List.nodup_cons] at distinct
      rw [written_cons]
      rcases List.mem_cons.mp h with rfl | member
      · rw [written_of_not_mem distinct.1, Function.update_self]
      · exact ih distinct.2 member _

namespace Operator

/-- Every slot that the operator reads or writes is in a buffer of the given length. -/
def Inside (size : Nat) (operator : Operator α) : Prop :=
  ∀ slot, slot ∈ operator.reads ∨ slot ∈ operator.slots → slot < size

instance (size : Nat) (operator : Operator α) : Decidable (operator.Inside size) :=
  decidable_of_iff (∀ slot ∈ operator.reads ++ operator.slots, slot < size)
    (forall_congr' fun _ => imp_congr_left List.mem_append)

theorem mem_both {spans : List Span} {slot : Nat} :
    slot ∈ reads.both spans ↔ ∃ span ∈ spans, slot = span.position ∨ slot = span.extent := by
  simp [reads.both]

theorem forall_mem_both {spans : List Span} {holds : Nat → Prop} :
    (∀ slot ∈ reads.both spans, holds slot) ↔
      ∀ span ∈ spans, holds span.position ∧ holds span.extent := by
  constructor
  · intro h span member
    exact ⟨h _ (mem_both.mpr ⟨span, member, .inl rfl⟩),
      h _ (mem_both.mpr ⟨span, member, .inr rfl⟩)⟩
  · intro h slot member
    obtain ⟨span, listed, rfl | rfl⟩ := mem_both.mp member
    · exact (h span listed).1
    · exact (h span listed).2

/-- A background reads, and writes, four consecutive slots. -/
theorem mem_four {base slot : Nat} :
    slot ∈ [base, base + 1, base + 2, base + 3] ↔ ∃ offset < 4, slot = base + offset := by
  simp only [List.mem_cons, List.not_mem_nil, or_false]
  constructor
  · intro h
    exact ⟨slot - base, by omega⟩
  · rintro ⟨offset, small, rfl⟩
    omega

theorem mem_slots_stack {axis : Axis} {children : List Nat} {container : Nat} {spacing : α}
    {alignment : Alignment} {slot : Nat} :
    slot ∈ (stack axis children container spacing alignment).slots ↔
      (∃ base ∈ children, slot = base + axis.position ∨ slot = base + axis.cross.position) ∨
        slot = container + axis.extent ∨ slot = container + axis.cross.extent := by
  simp [slots]

theorem mem_reads_stack {axis : Axis} {children : List Nat} {container : Nat} {spacing : α}
    {alignment : Alignment} {slot : Nat} :
    slot ∈ (stack axis children container spacing alignment).reads ↔
      slot = container + axis.cross.extent ∨
        ∃ base ∈ children, slot = base + axis.extent ∨ slot = base + axis.cross.extent := by
  simp [reads]

variable [Scalar α]

/-- The least of some numbers. -/
def lowest : List α → α
  | [] => nat 0
  | first :: rest => least first rest

/-- The greatest of some numbers. -/
def highest : List α → α
  | [] => nat 0
  | first :: rest => greatest first rest

/-- The far edge of a span. -/
def farEdge (numbers : Nat → α) (span : Span) : α :=
  numbers span.position + numbers span.extent

/-- The center of a span. -/
def centerOf (numbers : Nat → α) (span : Span) : α :=
  numbers span.position + numbers span.extent / nat 2

/-- The mean of the centers of spans. -/
def meanCenter (numbers : Nat → α) (spans : List Span) : α :=
  spans.foldl (fun sum span => sum + centerOf numbers span) (nat 0) / nat spans.length

/-- The entries that put the centers of spans at a place. -/
def centered (numbers : Nat → α) (center : α) (spans : List Span) : List (Nat × α) :=
  spans.map fun span => (span.position, center - numbers span.extent / nat 2)

/-- The entries that put each span before the place of the next one, given in reverse order. -/
def spaced (numbers : Nat → α) (spacing : α) : α → List Span → List (Nat × α)
  | _, [] => []
  | place, span :: rest =>
      let place := place - (numbers span.extent + spacing)
      (span.position, place) :: spaced numbers spacing place rest

/-- The entries that put the children of a stack one after the other, from a place on. -/
def stacked (numbers : Nat → α) (axis : Axis) (spacing : α) (alignment : Alignment) (room : α) :
    α → List Nat → List (Nat × α)
  | _, [] => []
  | place, base :: rest =>
      (base + axis.position, place) ::
        (base + axis.cross.position,
          acrossPlace alignment room (numbers (base + axis.cross.extent))) ::
        stacked numbers axis spacing alignment room
          (place + (numbers (base + axis.extent) + spacing)) rest

/-- The place after the last child of a stack and its spacing. -/
def stackEnd (numbers : Nat → α) (axis : Axis) (spacing : α) (place : α) (children : List Nat) :
    α :=
  children.foldl (fun place base => place + (numbers (base + axis.extent) + spacing)) place

/-- The largest extent of children across a stack, if it is above the given one. -/
def stackWidest (numbers : Nat → α) (axis : Axis) (widest : α) (children : List Nat) : α :=
  greatest widest (children.map fun base => numbers (base + axis.cross.extent))

/-- The step between spans that are spread evenly. -/
def spreadStep (values : List α) : α :=
  (highest values - lowest values) / nat (values.length - 1)

/-- The values that the operator proposes for its slots, given the number at every slot. -/
def proposed (numbers : Nat → α) : Operator α → List (Nat × α)
  | alignNear positions =>
      positions.map fun position => (position, lowest (positions.map numbers))
  | alignFar spans =>
      spans.map fun span =>
        (span.position, highest (spans.map (farEdge numbers)) - numbers span.extent)
  | alignCenter spans => centered numbers (meanCenter numbers spans) spans
  | centerOn anchor spans => centered numbers (centerOf numbers anchor) spans
  | distribute spans spacing =>
      if spans.length < 2 then []
      else if lt (nat 0) spacing then
        match spans.reverse with
        | [] => []
        | last :: others =>
            (last.position, numbers last.position) ::
              spaced numbers spacing (numbers last.position) others
      else
        let values := spans.map fun span => numbers span.position
        spreadProposals (lowest values) (spreadStep values) 0 spans
  | background child box padding =>
      [(box, numbers child - padding), (box + 1, numbers (child + 1) - padding),
        (box + 2, numbers (child + 2) + padding * nat 2),
        (box + 3, numbers (child + 3) + padding * nat 2)]
  | stack axis children container spacing alignment =>
      stacked numbers axis spacing alignment (numbers (container + axis.cross.extent)) (nat 0)
          children ++
        [(container + axis.extent,
            if children.isEmpty then nat 0
            else stackEnd numbers axis spacing (nat 0) children - spacing),
          (container + axis.cross.extent, stackWidest numbers axis (nat 0) children)]

/-- What every slot would hold if all proposals of the operator were taken over. -/
def target (numbers : Nat → α) (operator : Operator α) : Nat → α :=
  written (operator.proposed numbers) numbers

/-! ## Evaluation inside a buffer -/

section Inside

variable {buffer : Buffer α}

theorem readSpan_eq_ok {span : Span} (position : span.position < buffer.size)
    (extent : span.extent < buffer.size) :
    readSpan buffer span = .ok (buffer.numbers span.position, buffer.numbers span.extent) := by
  rw [readSpan, Buffer.read_eq_ok position, Buffer.read_eq_ok extent]
  rfl

theorem mapM_readSpan_eq_ok {spans : List Span}
    (inside : ∀ slot ∈ reads.both spans, slot < buffer.size) :
    spans.mapM (readSpan buffer) = .ok (spans.map fun span =>
      (buffer.numbers span.position, buffer.numbers span.extent)) := by
  apply mapM_eq_ok
  intro span member
  obtain ⟨position, extent⟩ := forall_mem_both.mp inside span member
  exact readSpan_eq_ok position extent

theorem centerProposals_eq_ok {spans : List Span}
    (extents : ∀ span ∈ spans, span.extent < buffer.size) (center : α) :
    centerProposals buffer center spans = .ok (centered buffer.numbers center spans) := by
  apply mapM_eq_ok
  intro span member
  rw [Buffer.read_eq_ok (extents span member)]
  rfl

theorem spacedProposals_eq_ok {spans : List Span}
    (extents : ∀ span ∈ spans, span.extent < buffer.size) (spacing place : α) :
    spacedProposals buffer spacing place spans =
      .ok (spaced buffer.numbers spacing place spans) := by
  induction spans generalizing place with
  | nil => rfl
  | cons span rest ih =>
      rw [spacedProposals, Buffer.read_eq_ok (extents span (by simp))]
      have others := ih fun other member => extents other (by simp [member])
      simp only [bind, Except.bind, others, spaced]
      rfl

theorem stackProposals_eq_ok {axis : Axis} {children : List Nat}
    (extents : ∀ base ∈ children, base + axis.extent < buffer.size)
    (crossExtents : ∀ base ∈ children, base + axis.cross.extent < buffer.size)
    (spacing : α) (alignment : Alignment) (room place widest : α) :
    stackProposals buffer axis spacing alignment room place widest children =
      .ok (stacked buffer.numbers axis spacing alignment room place children,
        stackEnd buffer.numbers axis spacing place children,
        stackWidest buffer.numbers axis widest children) := by
  induction children generalizing place widest with
  | nil => rfl
  | cons base rest ih =>
      rw [stackProposals, Buffer.read_eq_ok (extents base (by simp)),
        Buffer.read_eq_ok (crossExtents base (by simp))]
      have others := ih (fun other member => extents other (by simp [member]))
        (fun other member => crossExtents other (by simp [member]))
      simp only [bind, Except.bind, others]
      rfl

/-- Inside a buffer every operator can be evaluated. -/
theorem proposals_eq_ok {operator : Operator α} (inside : operator.Inside buffer.size) :
    operator.proposals buffer = .ok (operator.proposed buffer.numbers) := by
  cases operator with
  | alignNear positions =>
      have values : positions.mapM (Buffer.read buffer) = .ok (positions.map buffer.numbers) :=
        mapM_eq_ok fun slot member => Buffer.read_eq_ok (inside slot (.inl member))
      simp only [proposals, values, bind, Except.bind]
      cases positions <;> rfl
  | alignFar spans =>
      have values := mapM_readSpan_eq_ok fun slot read => inside slot (.inl read)
      have paired : ∀ edge : α, List.zipWith (fun span value => (span.position, edge - value.2))
          spans (spans.map fun span =>
            (buffer.numbers span.position, buffer.numbers span.extent)) =
          spans.map fun span => (span.position, edge - buffer.numbers span.extent) := by
        intro edge
        rw [List.zipWith_map_right, List.zipWith_self]
      simp only [proposals, values, bind, Except.bind, paired]
      cases spans with
      | nil => rfl
      | cons span rest =>
          simp only [List.map_map, List.map_cons]
          rfl
  | alignCenter spans =>
      have values := mapM_readSpan_eq_ok fun slot read => inside slot (.inl read)
      have spanwise := forall_mem_both.mp fun slot read => inside slot (.inl read)
      simp only [proposals, values, bind, Except.bind]
      cases spans with
      | nil => rfl
      | cons span rest =>
          simp only [List.isEmpty_map, List.isEmpty_cons, Bool.false_eq_true, if_false,
            List.foldl_map, List.length_map]
          exact centerProposals_eq_ok (fun span member => (spanwise span member).2) _
  | centerOn anchor spans =>
      have spanwise := forall_mem_both.mp fun slot read => inside slot (.inl read)
      obtain ⟨position, extent⟩ := spanwise anchor List.mem_cons_self
      have center := readSpan_eq_ok position extent
      have extents : ∀ span ∈ spans, span.extent < buffer.size := fun span member =>
        (spanwise span (List.mem_cons_of_mem _ member)).2
      simp only [proposals, center, bind, Except.bind]
      exact centerProposals_eq_ok extents _
  | distribute spans spacing =>
      have spanwise := forall_mem_both.mp fun slot read => inside slot (.inl read)
      simp only [proposals, proposed]
      split
      · rfl
      · split
        · cases backwards : spans.reverse with
          | nil => rfl
          | cons last others =>
              have among : ∀ span ∈ last :: others, span ∈ spans := by
                intro span member
                rwa [← backwards, List.mem_reverse] at member
              have place := Buffer.read_eq_ok (spanwise last (among last List.mem_cons_self)).1
              have rest := spacedProposals_eq_ok
                (fun span member => (spanwise span (among span (List.mem_cons_of_mem _ member))).2)
                spacing (buffer.numbers last.position)
              simp only [place, bind, Except.bind, rest]
              rfl
        · have values : (spans.mapM fun span => Buffer.read buffer span.position) =
              .ok (spans.map fun span => buffer.numbers span.position) :=
            mapM_eq_ok fun span member => Buffer.read_eq_ok (spanwise span member).1
          simp only [values, bind, Except.bind]
          cases spans with
          | nil => rfl
          | cons span rest => simp [lowest, highest, spreadStep]; rfl
  | background child box padding =>
      have first := Buffer.read_eq_ok (inside child (.inl (by simp [reads])))
      have second := Buffer.read_eq_ok (inside (child + 1) (.inl (by simp [reads])))
      have third := Buffer.read_eq_ok (inside (child + 2) (.inl (by simp [reads])))
      have fourth := Buffer.read_eq_ok (inside (child + 3) (.inl (by simp [reads])))
      simp only [proposals, first, second, third, fourth]
      rfl
  | stack axis children container spacing alignment =>
      have room := Buffer.read_eq_ok (inside _ (.inl (mem_reads_stack.mpr (.inl rfl))))
      have extents : ∀ base ∈ children, base + axis.extent < buffer.size := fun base member =>
        inside _ (.inl (mem_reads_stack.mpr (.inr ⟨base, member, .inl rfl⟩)))
      have crossExtents : ∀ base ∈ children, base + axis.cross.extent < buffer.size :=
        fun base member => inside _ (.inl (mem_reads_stack.mpr (.inr ⟨base, member, .inr rfl⟩)))
      simp only [proposals, room, bind, Except.bind,
        stackProposals_eq_ok extents crossExtents]
      rfl

end Inside

/-! ## What proposals are for and what they depend on -/

section Frame

variable {numbers other : Nat → α}

@[simp] theorem map_fst_centered (center : α) (spans : List Span) :
    (centered numbers center spans).map Prod.fst = spans.map Span.position := by
  simp [centered]

@[simp] theorem map_fst_spaced (spacing place : α) (spans : List Span) :
    (spaced numbers spacing place spans).map Prod.fst = spans.map Span.position := by
  induction spans generalizing place with
  | nil => rfl
  | cons span rest ih => simp [spaced, ih]

@[simp] theorem map_fst_spreadProposals (first step : α) (index : Nat) (spans : List Span) :
    (spreadProposals first step index spans).map Prod.fst = spans.map Span.position := by
  induction spans generalizing index with
  | nil => rfl
  | cons span rest ih => simp [spreadProposals, ih]

@[simp] theorem map_fst_stacked (axis : Axis) (spacing : α) (alignment : Alignment)
    (room place : α) (children : List Nat) :
    (stacked numbers axis spacing alignment room place children).map Prod.fst =
      children.flatMap fun base => [base + axis.position, base + axis.cross.position] := by
  induction children generalizing place with
  | nil => rfl
  | cons base rest ih => simp [stacked, ih]

/-- An operator proposes for all of its slots in order, for these in reverse, or for none. -/
theorem map_fst_proposed (operator : Operator α) :
    (operator.proposed numbers).map Prod.fst = operator.slots ∨
      (operator.proposed numbers).map Prod.fst = operator.slots.reverse ∨
      operator.proposed numbers = [] := by
  cases operator with
  | alignNear positions => exact .inl (by simp [proposed, slots, Function.comp_def])
  | alignFar spans => exact .inl (by simp [proposed, slots])
  | alignCenter spans => exact .inl (by simp [proposed, slots])
  | centerOn anchor spans => exact .inl (by simp [proposed, slots])
  | distribute spans spacing =>
      simp only [proposed, slots]
      split
      · exact .inr (.inr rfl)
      · split
        · cases backwards : spans.reverse with
          | nil => exact .inr (.inr rfl)
          | cons last others =>
              refine .inr (.inl ?_)
              simp only [List.map_cons, map_fst_spaced]
              rw [← List.map_cons, ← backwards, List.map_reverse]
        · exact .inl (by simp)
  | background child box padding => exact .inl rfl
  | stack axis children container spacing alignment => exact .inl (by simp [proposed, slots])

/-- Proposals are for slots of the operator only. -/
theorem mem_slots_of_mem_proposed {operator : Operator α} {entry : Nat × α}
    (h : entry ∈ operator.proposed numbers) : entry.1 ∈ operator.slots := by
  have named : entry.1 ∈ (operator.proposed numbers).map Prod.fst := List.mem_map_of_mem h
  have order : (operator.proposed numbers).map Prod.fst = operator.slots ∨ _ :=
    map_fst_proposed operator
  rcases order with same | backwards | empty
  · rwa [same] at named
  · rwa [backwards, List.mem_reverse] at named
  · rw [empty] at h
    cases h

/-- Slots that the operator does not own are left as they are. -/
theorem target_of_not_mem {operator : Operator α} {slot : Nat} (h : slot ∉ operator.slots) :
    operator.target numbers slot = numbers slot := by
  apply written_of_not_mem
  intro named
  obtain ⟨entry, member, rfl⟩ := List.mem_map.mp named
  exact h (mem_slots_of_mem_proposed member)

theorem centered_congr {spans : List Span}
    (h : ∀ span ∈ spans, numbers span.extent = other span.extent) (center : α) :
    centered numbers center spans = centered other center spans := by
  apply List.map_congr_left
  intro span member
  rw [h span member]

theorem spaced_congr {spans : List Span}
    (h : ∀ span ∈ spans, numbers span.extent = other span.extent) (spacing place : α) :
    spaced numbers spacing place spans = spaced other spacing place spans := by
  induction spans generalizing place with
  | nil => rfl
  | cons span rest ih =>
      simp only [spaced, h span (by simp)]
      rw [ih fun span member => h span (by simp [member])]

theorem stacked_congr {axis : Axis} {children : List Nat}
    (extents : ∀ base ∈ children, numbers (base + axis.extent) = other (base + axis.extent))
    (crossExtents : ∀ base ∈ children,
      numbers (base + axis.cross.extent) = other (base + axis.cross.extent))
    (spacing : α) (alignment : Alignment) (room place : α) :
    stacked numbers axis spacing alignment room place children =
      stacked other axis spacing alignment room place children := by
  induction children generalizing place with
  | nil => rfl
  | cons base rest ih =>
      simp only [stacked, extents base (by simp), crossExtents base (by simp)]
      rw [ih (fun base member => extents base (by simp [member]))
        fun base member => crossExtents base (by simp [member])]

theorem stackEnd_congr {axis : Axis} {children : List Nat}
    (extents : ∀ base ∈ children, numbers (base + axis.extent) = other (base + axis.extent))
    (spacing place : α) :
    stackEnd numbers axis spacing place children = stackEnd other axis spacing place children := by
  induction children generalizing place with
  | nil => rfl
  | cons base rest ih =>
      simp only [stackEnd, List.foldl_cons, extents base (by simp)]
      exact ih (fun base member => extents base (by simp [member])) _

theorem stackWidest_congr {axis : Axis} {children : List Nat}
    (crossExtents : ∀ base ∈ children,
      numbers (base + axis.cross.extent) = other (base + axis.cross.extent)) (widest : α) :
    stackWidest numbers axis widest children = stackWidest other axis widest children := by
  rw [stackWidest, stackWidest, List.map_congr_left crossExtents]

/-- Two states that agree at the slots that the operator reads get the same proposals. -/
theorem proposed_congr {operator : Operator α}
    (h : ∀ slot ∈ operator.reads, numbers slot = other slot) :
    operator.proposed numbers = operator.proposed other := by
  cases operator with
  | alignNear positions =>
      have values : positions.map numbers = positions.map other := List.map_congr_left h
      simp only [proposed, values]
  | alignFar spans =>
      have agree := forall_mem_both.mp h
      have edges : spans.map (farEdge numbers) = spans.map (farEdge other) :=
        List.map_congr_left fun span member => by
          rw [farEdge, farEdge, (agree span member).1, (agree span member).2]
      simp only [proposed, edges]
      exact List.map_congr_left fun span member => by rw [(agree span member).2]
  | alignCenter spans =>
      have agree := forall_mem_both.mp h
      have mean : meanCenter numbers spans = meanCenter other spans := by
        rw [meanCenter, meanCenter]
        congr 1
        apply List.foldl_ext
        intro sum span member
        rw [centerOf, centerOf, (agree span member).1, (agree span member).2]
      simp only [proposed, mean]
      exact centered_congr (fun span member => (agree span member).2) _
  | centerOn anchor spans =>
      have agree := forall_mem_both.mp h
      have center : centerOf numbers anchor = centerOf other anchor := by
        rw [centerOf, centerOf, (agree anchor (by simp)).1, (agree anchor (by simp)).2]
      simp only [proposed, center]
      exact centered_congr (fun span member => (agree span (by simp [member])).2) _
  | distribute spans spacing =>
      have agree := forall_mem_both.mp h
      have values : (spans.map fun span => numbers span.position) =
          spans.map fun span => other span.position :=
        List.map_congr_left fun span member => (agree span member).1
      simp only [proposed, values]
      cases backwards : spans.reverse with
      | nil => rfl
      | cons last others =>
          have among : ∀ span ∈ last :: others, span ∈ spans := by
            intro span member
            rwa [← backwards, List.mem_reverse] at member
          simp only [(agree last (among last (by simp))).1]
          rw [spaced_congr fun span member => (agree span (among span (by simp [member]))).2]
  | background child box padding =>
      simp only [proposed, h child (by simp [reads]), h (child + 1) (by simp [reads]),
        h (child + 2) (by simp [reads]), h (child + 3) (by simp [reads])]
  | stack axis children container spacing alignment =>
      have room := h _ (mem_reads_stack.mpr (.inl rfl))
      have extents : ∀ base ∈ children, numbers (base + axis.extent) = other (base + axis.extent) :=
        fun base member => h _ (mem_reads_stack.mpr (.inr ⟨base, member, .inl rfl⟩))
      have crossExtents : ∀ base ∈ children,
          numbers (base + axis.cross.extent) = other (base + axis.cross.extent) :=
        fun base member => h _ (mem_reads_stack.mpr (.inr ⟨base, member, .inr rfl⟩))
      simp only [proposed, room, stacked_congr extents crossExtents, stackEnd_congr extents,
        stackWidest_congr crossExtents]

/-- States that agree at the slots that the operator reads, and at one that it owns, are given the
same number there. -/
theorem target_congr {operator : Operator α}
    (h : ∀ slot ∈ operator.reads, numbers slot = other slot) {slot : Nat}
    (own : numbers slot = other slot) :
    operator.target numbers slot = operator.target other slot := by
  rw [target, target, proposed_congr h]
  exact written_congr fun _ => own

end Frame

/-! ## Evaluation into a buffer -/

theorem writeAll_eq_ok {buffer : Buffer α} {entries : List (Nat × α)}
    (inside : ∀ entry ∈ entries, entry.1 < buffer.size) :
    ∃ result, writeAll buffer entries = .ok result ∧ result.size = buffer.size ∧
      result.numbers = written entries buffer.numbers := by
  induction entries generalizing buffer with
  | nil => exact ⟨buffer, rfl, rfl, rfl⟩
  | cons entry rest ih =>
      obtain ⟨middle, wrote, size, numbers⟩ :=
        Buffer.write_eq_ok (inside entry (by simp)) entry.2
      have insideMiddle : ∀ entry ∈ rest, entry.1 < middle.size := fun entry member => by
        rw [size]
        exact inside entry (by simp [member])
      obtain ⟨result, others, size', numbers'⟩ := ih insideMiddle
      refine ⟨result, ?_, size'.trans size, ?_⟩
      · rw [writeAll, List.foldlM_cons, wrote]
        exact others
      · rw [numbers', numbers, written_cons]

/-- Inside two buffers of one length, evaluation writes the proposals on the first into the
second. -/
theorem eval_eq_ok {operator : Operator α} {current next : Buffer α}
    (inside : operator.Inside current.size) (size : next.size = current.size) :
    ∃ result, operator.eval current next = .ok result ∧ result.size = current.size ∧
      result.numbers = written (operator.proposed current.numbers) next.numbers := by
  have insideNext : ∀ entry ∈ operator.proposed current.numbers, entry.1 < next.size :=
    fun entry member => by
      rw [size]
      exact inside _ (.inr (mem_slots_of_mem_proposed member))
  obtain ⟨result, wrote, size', numbers⟩ := writeAll_eq_ok insideNext
  refine ⟨result, ?_, size'.trans size, numbers⟩
  rw [eval, proposals_eq_ok inside]
  exact wrote

end Operator

end SceneLayout
