import SceneLayout.Proofs.Boxes

/-!
# Guarded evaluation

Layout divides and takes extremes without looking whether it may. Here it is evaluated once
more with every such step guarded: a division by zero is a trap, the least or the
greatest of no numbers is a trap, and so is a slot outside the buffer. On no buffer does
an operator meet any other trap than a missing slot, and a scene whose operators stay
inside its buffer is laid out with none at all. What is laid out is the same.

Main statements: `proposals_eq`, `solve_eq_ok`.

## Implementation notes

A whole number that is divided by is guarded as such and not as a scalar, so nothing has to be
known of the numbers.
-/

namespace SceneLayout

open Scalar

/-- What can be missing: a slot of a buffer, a last entry, a divisor other than zero, or a number to
take the extreme of. -/
inductive Trap where
  | slot (error : SlotError)
  | entry
  | divisor
  | extreme
deriving DecidableEq

namespace Guarded

variable {α : Type}

/-- A result in which only a slot can be missing. -/
def lift {β : Type} (result : Except SlotError β) : Except Trap β := result.mapError .slot

theorem lift_bind {β γ : Type} (result : Except SlotError β) (next : β → Except SlotError γ) :
    lift (result >>= next) = lift result >>= fun value => lift (next value) := by
  cases result <;> rfl

theorem lift_pure {β : Type} (value : β) : lift (pure value) = pure value := rfl

theorem lift_mapM {β γ : Type} (items : List β) (step : β → Except SlotError γ) :
    lift (items.mapM step) = items.mapM fun item => lift (step item) := by
  induction items with
  | nil => rfl
  | cons item rest ih => simp only [List.mapM_cons, lift_bind, lift_pure, ih]

/-- A step on every member of a list that is not empty fails or gives a first result. -/
theorem mapM_eq_error_or_cons {β γ : Type} {items : List β} (some : items ≠ [])
    (step : β → Except SlotError γ) :
    (∃ error, items.mapM step = .error error) ∨
      ∃ first rest, items.mapM step = .ok (first :: rest) ∧ rest.length + 1 = items.length := by
  induction items with
  | nil => exact absurd rfl some
  | cons item more ih =>
      rw [List.mapM_cons]
      cases step item with
      | error error => exact .inl ⟨error, rfl⟩
      | ok first =>
          by_cases single : more = []
          · subst single
            exact .inr ⟨first, [], rfl, rfl⟩
          rcases ih single with ⟨error, failed⟩ | ⟨second, rest, found, count⟩
          · rw [failed]
            exact .inl ⟨error, rfl⟩
          · rw [found]
            refine .inr ⟨first, second :: rest, rfl, ?_⟩
            rw [List.length_cons, List.length_cons, count]

section Arithmetic

variable [Scalar α]

/-- A quotient, unless the divisor is a zero of either sign. -/
def divide (a b : α) : Except Trap α := if same b (nat 0) then .error .divisor else .ok (a / b)

/-- The part of a number for each of a count. -/
def share (a : α) (count : Nat) : Except Trap α :=
  if count = 0 then .error .divisor else .ok (a / nat count)

/-- The least of some numbers. -/
def leastOf : List α → Except Trap α
  | [] => .error .extreme
  | first :: rest => .ok (least first rest)

/-- The greatest of some numbers. -/
def greatestOf : List α → Except Trap α
  | [] => .error .extreme
  | first :: rest => .ok (greatest first rest)

theorem share_eq_ok (a : α) {count : Nat} (some : count ≠ 0) :
    share a count = .ok (a / nat count) :=
  if_neg some

end Arithmetic

/-! ## Operators -/

section Operators

variable [Scalar α]

/-- The number at a slot. -/
def read (current : Buffer α) (slot : Nat) : Except Trap α := lift (Buffer.read current slot)

/-- The proposals that put the centers of the spans at a place. -/
def centered (current : Buffer α) (center : α) (spans : List Span) :
    Except Trap (List (Nat × α)) :=
  spans.mapM fun span => do
    let half ← share (← read current span.extent) 2
    return (span.position, center - half)

/-- The center of a span. -/
def centerOf (current : Buffer α) (span : Span) : Except Trap α := do
  let position ← read current span.position
  let half ← share (← read current span.extent) 2
  return position + half

/-- The place across a stack of a child. -/
def acrossPlace (alignment : Alignment) (room thickness : α) : Except Trap α :=
  match alignment with
  | .start => .ok (nat 0)
  | .center => share (room - thickness) 2
  | .finish => .ok (room - thickness)

/-- The proposals for the children of a stack, the place after the last one with its spacing, and
the largest extent across. -/
def stacked (current : Buffer α) (axis : Axis) (spacing : α) (alignment : Alignment) (room : α) :
    α → α → List Nat → Except Trap (List (Nat × α) × α × α)
  | offset, widest, [] => .ok ([], offset, widest)
  | offset, widest, base :: rest => do
      let extent ← read current (base + axis.extent)
      let thickness ← read current (base + axis.cross.extent)
      let across ← acrossPlace alignment room thickness
      let widest := if lt widest thickness then thickness else widest
      let (others, finish, widest) ← stacked current axis spacing alignment room
        (offset + (extent + spacing)) widest rest
      return ((base + axis.position, offset) :: (base + axis.cross.position, across) :: others,
        finish, widest)

/-- The values that an operator proposes for its slots, in the order of writing. -/
def proposals (current : Buffer α) : Operator α → Except Trap (List (Nat × α))
  | .alignNear positions =>
      if positions.isEmpty then return []
      else do
        let lowest ← leastOf (← positions.mapM (read current))
        return positions.map fun position => (position, lowest)
  | .alignFar spans =>
      if spans.isEmpty then return []
      else do
        let values ← spans.mapM fun span => lift (Operator.readSpan current span)
        let edge ← greatestOf (values.map fun value => value.1 + value.2)
        return List.zipWith (fun span value => (span.position, edge - value.2)) spans values
  | .alignCenter spans =>
      if spans.isEmpty then return []
      else do
        let centers ← spans.mapM (centerOf current)
        let mean ← share (centers.foldl (· + ·) (nat 0)) spans.length
        centered current mean spans
  | .centerOn anchor spans => do centered current (← centerOf current anchor) spans
  | .distribute spans spacing =>
      if spans.length < 2 then return []
      else if lt (nat 0) spacing then
        match spans.reverse with
        | [] => .error .entry
        | last :: others => do
            let place ← read current last.position
            let earlier ← lift (Operator.spacedProposals current spacing place others)
            return (last.position, place) :: earlier
      else do
        let values ← spans.mapM fun span => read current span.position
        let lowest ← leastOf values
        let highest ← greatestOf values
        let step ← share (highest - lowest) (spans.length - 1)
        return Operator.spreadProposals lowest step 0 spans
  | .background child box padding =>
      lift (Operator.proposals current (.background child box padding))
  | .stack axis children container spacing alignment => do
      let room ← read current (container + axis.cross.extent)
      let (proposed, finish, widest) ←
        stacked current axis spacing alignment room (nat 0) (nat 0) children
      let length := if children.isEmpty then nat 0 else finish - spacing
      return proposed ++
        [(container + axis.extent, length), (container + axis.cross.extent, widest)]

theorem centered_eq (current : Buffer α) (center : α) (spans : List Span) :
    centered current center spans = lift (Operator.centerProposals current center spans) := by
  rw [Operator.centerProposals, lift_mapM, centered]
  congr 1
  funext span
  rw [lift_bind]
  rfl

theorem acrossPlace_eq (alignment : Alignment) (room thickness : α) :
    acrossPlace alignment room thickness = .ok (Operator.acrossPlace alignment room thickness) := by
  cases alignment <;> rfl

theorem stacked_eq (current : Buffer α) (axis : Axis) (spacing : α) (alignment : Alignment)
    (room offset widest : α) (children : List Nat) :
    stacked current axis spacing alignment room offset widest children = lift
      (Operator.stackProposals current axis spacing alignment room offset widest children) := by
  induction children generalizing offset widest with
  | nil => rfl
  | cons base rest ih =>
      rw [stacked, Operator.stackProposals]
      simp only [ih, acrossPlace_eq, lift_bind]
      rfl

theorem centerOf_eq (current : Buffer α) (span : Span) :
    centerOf current span = lift do
      let value ← Operator.readSpan current span
      return value.1 + value.2 / nat 2 := by
  rw [centerOf, Operator.readSpan, read, read]
  cases Buffer.read current span.position with
  | error error => rfl
  | ok position => cases Buffer.read current span.extent <;> rfl

theorem mapM_centerOf_eq (current : Buffer α) (spans : List Span) :
    spans.mapM (centerOf current) = lift do
      let values ← spans.mapM (Operator.readSpan current)
      return values.map fun value => value.1 + value.2 / nat 2 := by
  induction spans with
  | nil => rfl
  | cons span rest ih =>
      rw [List.mapM_cons, List.mapM_cons, ih, centerOf_eq]
      cases Operator.readSpan current span with
      | error error => rfl
      | ok value => cases rest.mapM (Operator.readSpan current) <;> rfl

theorem proposals_alignNear_eq (current : Buffer α) (positions : List Nat) :
    proposals current (.alignNear positions) =
      lift (Operator.proposals current (.alignNear positions)) := by
  by_cases none : positions = []
  · subst none
    rfl
  have reads : positions.mapM (read current) = lift (positions.mapM (Buffer.read current)) :=
    (lift_mapM _ _).symm
  rw [proposals, if_neg (by rwa [List.isEmpty_iff]), reads, Operator.proposals]
  rcases mapM_eq_error_or_cons none (Buffer.read current) with
    ⟨error, failed⟩ | ⟨first, rest, found, -⟩
  · rw [failed]
    rfl
  · rw [found]
    rfl

theorem proposals_alignFar_eq (current : Buffer α) (spans : List Span) :
    proposals current (.alignFar spans) =
      lift (Operator.proposals current (.alignFar spans)) := by
  by_cases none : spans = []
  · subst none
    rfl
  rw [proposals, if_neg (by rwa [List.isEmpty_iff]), ← lift_mapM, Operator.proposals]
  rcases mapM_eq_error_or_cons none (Operator.readSpan current) with
    ⟨error, failed⟩ | ⟨first, rest, found, -⟩
  · rw [failed]
    rfl
  · rw [found]
    rfl

/-- The mean is taken of as many centers as there are spans. -/
theorem proposals_alignCenter_eq (current : Buffer α) (spans : List Span) :
    proposals current (.alignCenter spans) =
      lift (Operator.proposals current (.alignCenter spans)) := by
  by_cases none : spans = []
  · subst none
    rfl
  rw [proposals, if_neg (by rwa [List.isEmpty_iff]), mapM_centerOf_eq, Operator.proposals]
  rcases mapM_eq_error_or_cons none (Operator.readSpan current) with
    ⟨error, failed⟩ | ⟨first, rest, found, count⟩
  · rw [failed]
    rfl
  · rw [found]
    have many : spans.length ≠ 0 := by omega
    change (share (((first :: rest).map _).foldl (· + ·) (nat 0)) spans.length >>= _) =
      lift (Operator.centerProposals current (_ / nat (rest.length + 1)) spans)
    rw [share_eq_ok _ many, List.foldl_map, count, ← centered_eq]
    rfl

/-- There are gaps to share the room among, because there are two spans or more. -/
theorem proposals_distribute_eq (current : Buffer α) (spans : List Span) (spacing : α) :
    proposals current (.distribute spans spacing) =
      lift (Operator.proposals current (.distribute spans spacing)) := by
  rw [proposals, Operator.proposals]
  by_cases few : spans.length < 2
  · rw [if_pos few, if_pos few]
    rfl
  have some : spans ≠ [] := by
    rintro rfl
    exact few Nat.zero_lt_two
  rw [if_neg few, if_neg few]
  by_cases apart : lt (nat 0) spacing
  · rw [if_pos apart, if_pos apart]
    cases backwards : spans.reverse with
    | nil => exact absurd (List.reverse_eq_nil_iff.mp backwards) some
    | cons last others =>
        simp only [lift_bind]
        rfl
  · rw [if_neg apart, if_neg apart]
    have reads : (spans.mapM fun span => read current span.position) =
        lift (spans.mapM fun span => Buffer.read current span.position) :=
      (lift_mapM _ _).symm
    rw [reads]
    rcases mapM_eq_error_or_cons some fun span => Buffer.read current span.position with
      ⟨error, failed⟩ | ⟨first, rest, found, count⟩
    · rw [failed]
      rfl
    · rw [found]
      have step : ∀ a : α, share a (spans.length - 1) = .ok (a / nat rest.length) := by
        intro a
        rw [← count, Nat.add_sub_cancel]
        exact share_eq_ok a (by omega)
      change (share _ (spans.length - 1) >>= _) = _
      rw [step]
      rfl

/-- On no buffer does an operator meet another trap than a missing slot. -/
theorem proposals_eq (current : Buffer α) (operator : Operator α) :
    proposals current operator = lift (operator.proposals current) := by
  cases operator with
  | alignNear positions => exact proposals_alignNear_eq current positions
  | alignFar spans => exact proposals_alignFar_eq current spans
  | alignCenter spans => exact proposals_alignCenter_eq current spans
  | centerOn anchor spans =>
      rw [proposals, Operator.proposals, centerOf_eq]
      simp only [centered_eq]
      cases Operator.readSpan current anchor <;> rfl
  | distribute spans spacing => exact proposals_distribute_eq current spans spacing
  | background child box padding => rfl
  | stack axis children container spacing alignment =>
      rw [proposals, Operator.proposals]
      simp only [stacked_eq, lift_bind]
      rfl

end Operators

/-! ## Relaxation -/

section Relaxation

variable [Scalar α]

/-- Evaluates an operator on the current buffer and writes what it proposes into another one. -/
def eval (operator : Operator α) (current next : Buffer α) : Except Trap (Buffer α) := do
  lift (Operator.writeAll next (← proposals current operator))

/-- Moves one slot by the damped difference to its proposed value. -/
def blendSlot (damping : α) (scratch : Buffer α) (state : Buffer α × α) (slot : Nat) :
    Except Trap (Buffer α × α) := do
  let old ← read state.1 slot
  let proposed ← read scratch slot
  let change := proposed - old
  let current ← lift (Buffer.write state.1 slot (old + damping * change))
  return (current, if lt state.2 (magnitude change) then magnitude change else state.2)

/-- Evaluates an operator and blends its proposals for the given slots. -/
def apply (damping : α) (operator : Operator α) (slots : List Nat) (sweep : Sweep α) :
    Except Trap (Sweep α) := do
  let fresh ← lift (Sweep.refresh sweep.current slots sweep.scratch)
  let scratch ← eval operator sweep.current fresh
  let (current, residual) ←
    slots.foldlM (blendSlot damping scratch) (sweep.current, sweep.residual)
  return ⟨current, scratch, residual⟩

/-- Takes operators with their distinct slots in order. -/
def applyAll (damping : α) (plan : List (Operator α × List Nat)) (sweep : Sweep α) :
    Except Trap (Sweep α) :=
  plan.foldlM (fun sweep entry => apply damping entry.1 entry.2 sweep) sweep

/-- Makes passes while the residual calls for one and some of the budget is left. -/
def run (settings : Settings α) (plan : List (Operator α × List Nat)) :
    Nat → Nat → Option α → Buffer α → Buffer α → Except Trap (Buffer α × Stats α)
  | 0, passes, residual, current, _ =>
      .ok (current, ⟨passes, residual, settings.satisfiedBy residual⟩)
  | left + 1, passes, residual, current, scratch =>
      if settings.exceededBy residual then do
        let ⟨current, scratch, residual⟩ ← applyAll settings.damping plan ⟨current, scratch, nat 0⟩
        run settings plan left (passes + 1) (some residual) current scratch
      else .ok (current, ⟨passes, residual, settings.satisfiedBy residual⟩)

/-- Lays out a scene. -/
def solve (settings : Settings α) (scene : Scene α) : Except Trap (Solution α) := do
  let buffer := Scene.initial scene.records
  let (buffer, stats) ←
    run settings (Relaxation.plan scene.operators) settings.budget 0 none buffer buffer
  return ⟨Entries.ofList (← lift (Scene.boxes buffer 0 scene.records)), stats⟩

theorem eval_eq (operator : Operator α) (current next : Buffer α) :
    eval operator current next = lift (operator.eval current next) := by
  rw [eval, proposals_eq, Operator.eval, lift_bind]

theorem blendSlot_eq_ok {scratch : Buffer α} {state : Buffer α × α} {slot : Nat}
    (inside : slot < state.1.size) (size : scratch.size = state.1.size) (damping : α) :
    blendSlot damping scratch state slot = .ok (Sweep.blendSlot damping scratch state slot) := by
  have inScratch : slot < scratch.size := by omega
  simp only [blendSlot, Sweep.blendSlot, read, Buffer.read_eq_ok inside,
    Buffer.read_eq_ok inScratch, Buffer.getElem?_eq_numbers inside,
    Buffer.getElem?_eq_numbers inScratch, Buffer.write, Array.setIfInBounds, inside, dif_pos]
  rfl

theorem foldlM_blendSlot_eq_ok {scratch : Buffer α} {slots : List Nat} {state : Buffer α × α}
    (inside : ∀ slot ∈ slots, slot < state.1.size) (size : scratch.size = state.1.size)
    (damping : α) :
    slots.foldlM (blendSlot damping scratch) state =
      .ok (slots.foldl (Sweep.blendSlot damping scratch) state) := by
  induction slots generalizing state with
  | nil => rfl
  | cons slot rest ih =>
      have kept := Sweep.size_blendSlot damping scratch state slot
      rw [List.foldlM_cons, blendSlot_eq_ok (inside slot List.mem_cons_self) size, List.foldl_cons]
      refine ih ?_ (size.trans kept.symm)
      intro other member
      rw [kept]
      exact inside other (List.mem_cons_of_mem _ member)

/-- An operator inside the buffers is applied without a trap, and keeps their lengths. -/
theorem apply_eq_ok {operator : Operator α} {sweep : Sweep α}
    (inside : operator.Inside sweep.current.size)
    (size : sweep.scratch.size = sweep.current.size) (damping : α) :
    ∃ next, apply damping operator operator.slots.eraseDups sweep = .ok next ∧
      Sweep.apply damping operator operator.slots.eraseDups sweep = .ok next ∧
      next.current.size = sweep.current.size ∧ next.scratch.size = sweep.current.size := by
  obtain ⟨current, scratch, residual⟩ := sweep
  have insideSlots : ∀ slot ∈ operator.slots.eraseDups, slot < current.size :=
    fun slot member => inside slot (.inr (List.mem_eraseDups.mp member))
  obtain ⟨fresh, refreshed, freshSize, -⟩ := Sweep.refresh_eq_ok insideSlots size
  obtain ⟨next, evaluated, nextSize, -⟩ := Operator.eval_eq_ok inside freshSize
  have blended : operator.slots.eraseDups.foldlM (blendSlot damping next) (current, residual) =
      .ok (operator.slots.eraseDups.foldl (Sweep.blendSlot damping next) (current, residual)) :=
    foldlM_blendSlot_eq_ok insideSlots nextSize damping
  have kept := Sweep.size_foldl_blendSlot damping next operator.slots.eraseDups (current, residual)
  set result := operator.slots.eraseDups.foldl (Sweep.blendSlot damping next) (current, residual)
    with taken
  refine ⟨⟨result.1, next, result.2⟩, ?_, ?_, kept, nextSize⟩
  · rw [apply, refreshed]
    change (eval operator current fresh >>= _) = _
    rw [eval_eq, evaluated]
    change (operator.slots.eraseDups.foldlM (blendSlot damping next) (current, residual) >>= _) = _
    rw [blended]
    rfl
  · have step : (Sweep.refresh current operator.slots.eraseDups scratch >>=
        operator.eval current) = .ok next := by
      rw [refreshed]
      exact evaluated
    simp only [Sweep.apply, step, ← taken]

/-- A pass over operators inside the buffers meets no trap, and keeps their lengths. -/
theorem applyAll_eq_ok {operators : List (Operator α)} (sweep : Sweep α)
    (inside : ∀ operator ∈ operators, operator.Inside sweep.current.size)
    (size : sweep.scratch.size = sweep.current.size) (damping : α) :
    ∃ next, applyAll damping (Relaxation.plan operators) sweep = .ok next ∧
      Sweep.applyAll damping (Relaxation.plan operators) sweep = .ok next ∧
      next.current.size = sweep.current.size ∧ next.scratch.size = sweep.current.size := by
  induction operators generalizing sweep with
  | nil => exact ⟨sweep, rfl, rfl, rfl, size⟩
  | cons operator rest ih =>
      obtain ⟨middle, guarded, applied, middleSize, spareSize⟩ :=
        apply_eq_ok (inside operator List.mem_cons_self) size damping
      have insideMiddle : ∀ other ∈ rest, other.Inside middle.current.size := by
        intro other member
        rw [middleSize]
        exact inside other (List.mem_cons_of_mem _ member)
      obtain ⟨next, guardedRest, appliedRest, nextSize, scratchSize⟩ :=
        ih middle insideMiddle (spareSize.trans middleSize.symm)
      refine ⟨next, ?_, ?_, nextSize.trans middleSize, scratchSize.trans middleSize⟩
      · rw [applyAll, Relaxation.plan, List.map_cons, List.foldlM_cons, guarded]
        exact guardedRest
      · rw [Relaxation.plan, List.map_cons, Sweep.applyAll, applied]
        exact appliedRest

/-- Relaxation inside a buffer meets no trap, whether or not it converges, and keeps the length of
the buffer. -/
theorem run_eq_ok (settings : Settings α) {operators : List (Operator α)}
    {current scratch : Buffer α} (inside : ∀ operator ∈ operators, operator.Inside current.size)
    (size : scratch.size = current.size) (left passes : Nat) (residual : Option α) :
    ∃ final stats,
      run settings (Relaxation.plan operators) left passes residual current scratch =
        .ok (final, stats) ∧
      Relaxation.run settings (Relaxation.plan operators) left passes residual current scratch =
        .ok (final, stats) ∧
      final.size = current.size := by
  induction left generalizing current scratch passes residual with
  | zero => exact ⟨current, _, rfl, rfl, rfl⟩
  | succ left ih =>
      rw [run, Relaxation.run]
      by_cases exceeded : settings.exceededBy residual
      · rw [if_pos exceeded, if_pos exceeded]
        obtain ⟨⟨middle, spare, reached⟩, guarded, applied, middleSize, spareSize⟩ :=
          applyAll_eq_ok ⟨current, scratch, nat 0⟩ inside size settings.damping
        have insideMiddle : ∀ operator ∈ operators, operator.Inside middle.size := by
          rwa [middleSize]
        obtain ⟨final, stats, guardedRest, ran, finalSize⟩ :=
          ih insideMiddle (spareSize.trans middleSize.symm) (passes + 1) (some reached)
        refine ⟨final, stats, ?_, ?_, finalSize.trans middleSize⟩
        · rw [guarded]
          exact guardedRest
        · rw [applied]
          exact ran
      · rw [if_neg exceeded, if_neg exceeded]
        exact ⟨current, _, rfl, rfl, rfl⟩

/-- A scene whose operators stay inside its buffer is laid out without a trap, under all
settings. -/
theorem solve_eq_ok {scene : Scene α}
    (inside : ∀ operator ∈ scene.operators, operator.Inside scene.slotCount)
    (settings : Settings α) :
    ∃ solution, solve settings scene = .ok solution ∧ scene.solve settings = .ok solution := by
  have size : (Scene.initial scene.records).size = scene.slotCount :=
    Scene.size_initial scene.records
  rw [← size] at inside
  obtain ⟨final, stats, guarded, ran, finalSize⟩ :=
    run_eq_ok settings inside rfl settings.budget 0 none
  have room : slotsPerEntity * (0 + scene.records.length) ≤ final.size := by
    rw [finalSize, size, Nat.zero_add]
    exact Nat.le_refl _
  obtain ⟨boxes, boxed⟩ : ∃ boxes, Scene.boxes final 0 scene.records = .ok boxes :=
    ⟨_, Scene.boxes_eq_ok room⟩
  refine ⟨⟨Entries.ofList boxes, stats⟩, ?_, ?_⟩
  · rw [solve]
    simp only [guarded, bind, Except.bind, boxed]
    rfl
  · rw [Scene.solve, relax, ran]
    simp only [Except.mapError, bind, Except.bind, boxed]
    rfl

end Relaxation

end Guarded

end SceneLayout
