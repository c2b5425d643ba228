import SceneLayout.Proofs.Pass
import SceneLayout.Proofs.Placement

/-!
# Complete passes

A pass fails at the first slot that is missing. On a buffer of whole entities a pass over operators
on entities is complete only if none of their slots is: every operator is refreshed at all slots
that it owns, and an entity has all of its slots in the buffer or none. So a relaxation that succeeds
has its operators inside the buffer, or makes no pass.

Main statement: `idle_or_inside_of_relax`.
-/

namespace SceneLayout

universe u

variable {α : Type u} [Scalar α]

omit [Scalar α] in
theorem Buffer.lt_of_read {buffer : Buffer α} {slot : Nat} {value : α}
    (h : read buffer slot = .ok value) : slot < buffer.size :=
  (Array.getElem?_eq_some_iff.mp (read_eq_ok_iff.mp h)).1

/-- A buffer of whole entities has all slots of an entity or none. -/
theorem lt_of_same_entity {rank offset other count : Nat}
    (h : baseOf rank + offset < slotsPerEntity * count) (small : other < 4) :
    baseOf rank + other < slotsPerEntity * count := by
  simp only [baseOf, slotsPerEntity] at h ⊢
  omega

namespace Operator

/-- On a buffer of whole entities, an operator on entities only proposes if nothing that it may read
is missing. -/
theorem inside_of_proposals {operator : Operator α} (placed : operator.OnEntities)
    {buffer : Buffer α} {count : Nat} (whole : buffer.size = slotsPerEntity * count)
    (own : ∀ slot ∈ operator.slots, slot < buffer.size) {entries : List (Nat × α)}
    (h : operator.proposals buffer = .ok entries) : operator.Inside buffer.size := by
  have extents {span : Span} (onEntity : span.OnEntity) (inside : span.position < buffer.size) :
      span.extent < buffer.size := by
    obtain ⟨axis, rank, rfl⟩ := onEntity
    rw [whole] at inside ⊢
    exact lt_of_same_entity inside axis.extent_lt
  have spans {entries : List Span} (onEntity : ∀ span ∈ entries, span.OnEntity)
      (inside : ∀ slot ∈ entries.map Span.position, slot < buffer.size) :
      ∀ slot ∈ reads.both entries, slot < buffer.size := by
    rw [forall_mem_both]
    intro span member
    have position := inside span.position (List.mem_map_of_mem member)
    exact ⟨position, extents (onEntity span member) position⟩
  suffices reads : ∀ slot ∈ operator.reads, slot < buffer.size by
    rintro slot (read | owned)
    · exact reads slot read
    · exact own slot owned
  cases operator with
  | alignNear positions => exact own
  | alignFar entries => exact spans placed own
  | alignCenter entries => exact spans placed own
  | distribute entries spacing => exact spans placed own
  | centerOn anchor entries =>
      have anchored : anchor.position < buffer.size := by
        cases found : Buffer.read buffer anchor.position with
        | error error =>
            simp only [proposals, readSpan, found, bind, Except.bind] at h
            cases h
        | ok value => exact Buffer.lt_of_read found
      apply spans placed
      rw [List.map_cons, List.forall_mem_cons]
      exact ⟨anchored, own⟩
  | background child box padding =>
      have first : child < buffer.size := by
        cases found : Buffer.read buffer child with
        | error error =>
            simp only [proposals, found, bind, Except.bind] at h
            cases h
        | ok value => exact Buffer.lt_of_read found
      obtain ⟨rank, rfl⟩ := placed child (by simp)
      intro slot read
      obtain ⟨offset, small, rfl⟩ := mem_four.mp read
      rw [whole, ← Nat.add_zero (baseOf rank)] at first
      rw [whole]
      exact lt_of_same_entity first small
  | stack axis children container spacing alignment =>
      obtain ⟨ofContainer, ofChildren⟩ := List.forall_mem_cons.mp placed
      intro slot read
      rcases mem_reads_stack.mp read with rfl | ⟨base, member, atBase⟩
      · exact own _ (mem_slots_stack.mpr (.inr (.inr rfl)))
      · have position := own _ (mem_slots_stack.mpr (.inl ⟨base, member, .inl rfl⟩))
        obtain ⟨rank, rfl⟩ := ofChildren base member
        rw [whole] at position ⊢
        rcases atBase with rfl | rfl
        · exact lt_of_same_entity position axis.extent_lt
        · exact lt_of_same_entity position axis.cross.extent_lt

end Operator

namespace Sweep

omit [Scalar α] in
theorem lt_of_refresh {current scratch result : Buffer α} {slots : List Nat}
    (h : refresh current slots scratch = .ok result) : ∀ slot ∈ slots, slot < current.size := by
  induction slots generalizing scratch with
  | nil => exact List.forall_mem_nil _
  | cons first rest ih =>
      rw [refresh, List.foldlM_cons] at h
      cases found : Buffer.read current first with
      | error error =>
          rw [found] at h
          cases h
      | ok value =>
          cases wrote : Buffer.write scratch first value with
          | error error =>
              simp only [found, bind, Except.bind, wrote] at h
              cases h
          | ok middle =>
              simp only [found, bind, Except.bind, wrote] at h
              exact List.forall_mem_cons.mpr ⟨Buffer.lt_of_read found, ih h⟩

/-- What an operator on entities could be applied to has all its slots, and keeps its length. -/
theorem inside_of_apply {operator : Operator α} (placed : operator.OnEntities)
    {current scratch : Buffer α} {count : Nat} (whole : current.size = slotsPerEntity * count)
    {damping residual : α} {sweep : Sweep α}
    (h : Sweep.apply damping operator operator.slots.eraseDups ⟨current, scratch, residual⟩ =
      .ok sweep) :
    operator.Inside current.size ∧ sweep.current.size = current.size := by
  rw [Sweep.apply] at h
  cases refreshed : refresh current operator.slots.eraseDups scratch with
  | error error =>
      simp only [refreshed, bind, Except.bind] at h
      cases h
  | ok fresh =>
      cases proposed : operator.proposals current with
      | error error =>
          simp only [refreshed, bind, Except.bind, Operator.eval, proposed] at h
          cases h
      | ok entries =>
          have own : ∀ slot ∈ operator.slots, slot < current.size := fun slot member =>
            lt_of_refresh refreshed slot (List.mem_eraseDups.mpr member)
          refine ⟨Operator.inside_of_proposals placed whole own proposed, ?_⟩
          split at h
          · cases h
          · cases h
            exact size_foldl_blendSlot _ _ _ _

theorem inside_of_applyAll {operators : List (Operator α)}
    (placed : ∀ operator ∈ operators, operator.OnEntities) {current scratch : Buffer α}
    {count : Nat} (whole : current.size = slotsPerEntity * count) {damping residual : α}
    {sweep : Sweep α}
    (h : applyAll damping (Relaxation.plan operators) ⟨current, scratch, residual⟩ = .ok sweep) :
    ∀ operator ∈ operators, operator.Inside current.size := by
  induction operators generalizing current scratch residual with
  | nil => exact List.forall_mem_nil _
  | cons operator rest ih =>
      obtain ⟨first, others⟩ := List.forall_mem_cons.mp placed
      rw [Relaxation.plan, List.map_cons, applyAll] at h
      cases applied : Sweep.apply damping operator operator.slots.eraseDups
          ⟨current, scratch, residual⟩ with
      | error interruption =>
          simp only [applied] at h
          cases h
      | ok middle =>
          obtain ⟨inside, size⟩ := inside_of_apply first whole applied
          simp only [applied] at h
          have later := ih others (size.trans whole) h
          rw [size] at later
          exact List.forall_mem_cons.mpr ⟨inside, later⟩

end Sweep

/-- The settings call for no pass at all. -/
def Settings.Idle (settings : Settings α) : Prop :=
  settings.budget = 0 ∨ settings.exceededBy none = false

theorem Settings.Idle.relax_eq {settings : Settings α} (idle : settings.Idle)
    (operators : List (Operator α)) (buffer : Buffer α) :
    relax settings operators buffer = .ok (buffer, ⟨0, none, settings.satisfiedBy none⟩) := by
  rw [relax]
  rcases idle with budget | early
  · rw [budget, Relaxation.run_zero]
  · exact Relaxation.run_of_not_exceeded early _ _ _ _ _

/-- A relaxation under operators on entities makes no pass, or no slot is missing. -/
theorem idle_or_inside_of_relax {settings : Settings α} {operators : List (Operator α)}
    (placed : ∀ operator ∈ operators, operator.OnEntities) {buffer : Buffer α} {count : Nat}
    (whole : buffer.size = slotsPerEntity * count) {result : Buffer α × Stats α}
    (h : relax settings operators buffer = .ok result) :
    settings.Idle ∨ ∀ operator ∈ operators, operator.Inside buffer.size := by
  by_cases idle : settings.Idle
  · exact .inl idle
  · refine .inr ?_
    obtain ⟨budget, early⟩ := not_or.mp idle
    obtain ⟨left, within⟩ := Nat.exists_eq_succ_of_ne_zero budget
    rw [relax, within, Relaxation.run, if_pos (Bool.not_eq_false _ ▸ early)] at h
    cases swept : Sweep.applyAll settings.damping (Relaxation.plan operators)
        ⟨buffer, buffer, Scalar.nat 0⟩ with
    | error interruption =>
        simp only [swept] at h
        cases h
    | ok sweep => exact Sweep.inside_of_applyAll placed whole swept

end SceneLayout
