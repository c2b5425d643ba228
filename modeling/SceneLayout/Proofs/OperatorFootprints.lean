import Mathlib.Algebra.Order.BigOperators.Group.List
import Mathlib.Tactic.IntervalCases
import SceneLayout.Proofs.Exact
import SceneLayout.Proofs.OperatorGraph
import SceneLayout.Scene.Compile

/-!
# The footprints of operators

The slots that an operator reads and writes are listed apart from its evaluation. The lists are a
footprint: what an operator proposes depends on nothing but the slots that it reads, and what it
writes changes nothing but its own slots. So one operator has no say in what another proposes unless
the graph of operators has an arc between them. An operator may still depend on what it writes
itself, which the graph does not show.

Main statement: `operators_keep_to_footprints`.

## Implementation notes

An operator need not use all that it reads, so it can be evaluated on a buffer that lacks some of
these slots. What it proposes there, it proposes on every longer buffer too, and on one that is long
enough evaluation is the function of slots that is known already.
-/

namespace SceneLayout

universe u v

variable {α : Type u}

open Scalar

/-! ## Steps that may fail -/

/-- A step and what follows it succeed alike if both do so on their own. -/
theorem bind_eq_ok_of_imp {ε : Type*} {β γ : Type v} {first second : Except ε β} {next after : β → Except ε γ}
    {result : γ} (h : first >>= next = .ok result)
    (begun : ∀ value, first = .ok value → second = .ok value)
    (ended : ∀ value, next value = .ok result → after value = .ok result) :
    second >>= after = .ok result := by
  cases found : first with
  | error error =>
      rw [found] at h
      cases h
  | ok value =>
      rw [found] at h
      rw [begun value found]
      exact ended value h

theorem mapM_eq_ok_of_imp {β γ ε : Type*} {f g : β → Except ε γ} {items : List β}
    {results : List γ} (h : items.mapM f = .ok results)
    (imp : ∀ item ∈ items, ∀ result, f item = .ok result → g item = .ok result) :
    items.mapM g = .ok results := by
  induction items generalizing results with
  | nil => exact h
  | cons item rest ih =>
      rw [List.mapM_cons] at h ⊢
      apply bind_eq_ok_of_imp h (imp item List.mem_cons_self)
      intro result others
      apply bind_eq_ok_of_imp others
      · intro results found
        exact ih found fun other member => imp other (List.mem_cons_of_mem _ member)
      · exact fun _ same => same

namespace Buffer

/-- Where the first buffer has one of the slots, the second has it with the same number. -/
def ExtendsOn (slots : List Nat) (buffer other : Buffer α) : Prop :=
  ∀ slot ∈ slots, ∀ value, read buffer slot = .ok value → read other slot = .ok value

/-- Two buffers have the same of some slots, with the same numbers. -/
def AgreeOn (slots : List Nat) (buffer other : Buffer α) : Prop :=
  ∀ slot ∈ slots, buffer[slot]? = other[slot]?

variable {slots : List Nat} {buffer other : Buffer α}

theorem AgreeOn.extendsOn (agree : AgreeOn slots buffer other) : ExtendsOn slots buffer other := by
  intro slot member value found
  rw [read_eq_ok_iff] at found ⊢
  rw [← agree slot member, found]

theorem AgreeOn.symm (agree : AgreeOn slots buffer other) : AgreeOn slots other buffer :=
  fun slot member => (agree slot member).symm

theorem extendsOn_append (slots : List Nat) (buffer more : Buffer α) :
    ExtendsOn slots buffer (buffer ++ more) := by
  intro slot _ value found
  rw [read_eq_ok_iff] at found ⊢
  obtain ⟨inside, rfl⟩ := Array.getElem?_eq_some_iff.mp found
  rw [Array.getElem?_append_left inside, found]

end Buffer

namespace Operator

variable [Scalar α]

/-! ## What an operator reads -/

section Reads

variable {current other : Buffer α}

open Buffer

omit [Scalar α] in
theorem extendsOn_span {spans : List Span} (extend : ExtendsOn (reads.both.{u} spans) current other)
    {span : Span} (member : span ∈ spans) :
    ExtendsOn [span.position, span.extent] current other := by
  intro slot listed
  rw [List.mem_pair] at listed
  exact extend slot (mem_both.mpr ⟨span, member, listed⟩)

omit [Scalar α] in
theorem readSpan_of_extendsOn {span : Span}
    (extend : ExtendsOn [span.position, span.extent] current other) {values : α × α}
    (h : readSpan current span = .ok values) : readSpan other span = .ok values := by
  apply bind_eq_ok_of_imp h (extend span.position (by simp))
  intro position rest
  exact bind_eq_ok_of_imp rest (extend span.extent (by simp)) fun _ same => same

omit [Scalar α] in
theorem mapM_readSpan_of_extendsOn {spans : List Span}
    (extend : ∀ span ∈ spans, ExtendsOn [span.position, span.extent] current other)
    {values : List (α × α)} (h : spans.mapM (readSpan current) = .ok values) :
    spans.mapM (readSpan other) = .ok values :=
  mapM_eq_ok_of_imp h fun span member _ => readSpan_of_extendsOn (extend span member)

theorem centerProposals_of_extendsOn {spans : List Span}
    (extend : ∀ span ∈ spans, ExtendsOn [span.position, span.extent] current other) {center : α}
    {entries : List (Nat × α)} (h : centerProposals current center spans = .ok entries) :
    centerProposals other center spans = .ok entries := by
  apply mapM_eq_ok_of_imp h
  intro span member entry made
  exact bind_eq_ok_of_imp made (extend span member span.extent (by simp)) fun _ same => same

theorem spacedProposals_of_extendsOn {spans : List Span}
    (extend : ExtendsOn (spans.map Span.extent) current other) {spacing place : α}
    {entries : List (Nat × α)} (h : spacedProposals current spacing place spans = .ok entries) :
    spacedProposals other spacing place spans = .ok entries := by
  induction spans generalizing place entries with
  | nil => exact h
  | cons span rest ih =>
      apply bind_eq_ok_of_imp h (extend span.extent (by simp))
      intro extent others
      refine bind_eq_ok_of_imp others (fun entries made => ?_) fun _ same => same
      exact ih (fun slot member => extend slot (List.mem_cons_of_mem _ member)) made

theorem stackProposals_of_extendsOn {axis : Axis} {children : List Nat}
    (extend : ExtendsOn
      (children.flatMap fun base => [base + axis.extent, base + axis.cross.extent]) current other)
    {spacing : α} {alignment : Alignment} {room place widest : α}
    {result : List (Nat × α) × α × α}
    (h : stackProposals current axis spacing alignment room place widest children = .ok result) :
    stackProposals other axis spacing alignment room place widest children = .ok result := by
  induction children generalizing place widest result with
  | nil => exact h
  | cons base rest ih =>
      apply bind_eq_ok_of_imp h (extend _ (by simp))
      intro extent afterExtent
      apply bind_eq_ok_of_imp afterExtent (extend _ (by simp))
      intro thickness others
      refine bind_eq_ok_of_imp others (fun result made => ?_) fun _ same => same
      exact ih (fun slot member => extend slot (List.mem_append_right _ member)) made

/-- What is proposed on a buffer is proposed on every other one that extends it where the operator
reads. -/
theorem proposals_of_extendsOn {operator : Operator α}
    (extend : ExtendsOn operator.reads current other) {entries : List (Nat × α)}
    (h : operator.proposals current = .ok entries) : operator.proposals other = .ok entries := by
  cases operator with
  | alignNear positions =>
      refine bind_eq_ok_of_imp h (fun values found => ?_) fun _ same => same
      exact mapM_eq_ok_of_imp found extend
  | alignFar spans =>
      have spanwise := fun span (member : span ∈ spans) => extendsOn_span extend member
      exact bind_eq_ok_of_imp h (fun _ => mapM_readSpan_of_extendsOn spanwise) fun _ same => same
  | alignCenter spans =>
      have spanwise := fun span (member : span ∈ spans) => extendsOn_span extend member
      apply bind_eq_ok_of_imp h fun _ => mapM_readSpan_of_extendsOn spanwise
      intro values rest
      by_cases empty : values.isEmpty
      · rw [if_pos empty] at rest ⊢
        exact rest
      · rw [if_neg empty] at rest ⊢
        exact centerProposals_of_extendsOn spanwise rest
  | centerOn anchor spans =>
      have spanwise := fun span (member : span ∈ anchor :: spans) => extendsOn_span extend member
      apply bind_eq_ok_of_imp h
      · exact fun _ => readSpan_of_extendsOn (spanwise anchor List.mem_cons_self)
      · exact fun _ => centerProposals_of_extendsOn fun span member =>
          spanwise span (List.mem_cons_of_mem _ member)
  | distribute spans spacing =>
      simp only [proposals] at h ⊢
      split at h
      · next few => rw [if_pos few, h]
      · next many =>
          rw [if_neg many]
          split at h
          · next spaced =>
              rw [if_pos spaced]
              cases backwards : spans.reverse with
              | nil =>
                  rw [backwards] at h
                  exact h
              | cons last others =>
                  have among : ∀ span ∈ last :: others, span ∈ spans := by
                    intro span member
                    rwa [← backwards, List.mem_reverse] at member
                  rw [backwards] at h
                  apply bind_eq_ok_of_imp h (extend last.position
                    (mem_both.mpr ⟨last, among last List.mem_cons_self, .inl rfl⟩))
                  intro place rest
                  refine bind_eq_ok_of_imp rest (fun entries => ?_) fun _ same => same
                  apply spacedProposals_of_extendsOn
                  intro slot member
                  obtain ⟨span, listed, rfl⟩ := List.mem_map.mp member
                  exact extend _ (mem_both.mpr
                    ⟨span, among span (List.mem_cons_of_mem _ listed), .inr rfl⟩)
          · next even =>
              rw [if_neg even]
              refine bind_eq_ok_of_imp h (fun values found => ?_) fun _ same => same
              apply mapM_eq_ok_of_imp found
              intro span member
              exact extend _ (mem_both.mpr ⟨span, member, .inl rfl⟩)
  | background child box padding =>
      apply bind_eq_ok_of_imp h (extend child (by simp [reads]))
      intro x rest
      apply bind_eq_ok_of_imp rest (extend (child + 1) (by simp [reads]))
      intro y rest
      apply bind_eq_ok_of_imp rest (extend (child + 2) (by simp [reads]))
      intro width rest
      exact bind_eq_ok_of_imp rest (extend (child + 3) (by simp [reads])) fun _ same => same
  | stack axis children container spacing alignment =>
      apply bind_eq_ok_of_imp h (extend _ List.mem_cons_self)
      intro room rest
      refine bind_eq_ok_of_imp rest (fun result => stackProposals_of_extendsOn ?_) fun _ same => same
      exact fun slot member => extend slot (List.mem_cons_of_mem _ member)

end Reads

/-! ## What an operator writes -/

section Writes

variable {current next result : Buffer α} {entries : List (Nat × α)} {operator : Operator α}

omit [Scalar α] in
/-- Some length has room for all slots of an operator. -/
theorem exists_inside (operator : Operator α) : ∃ size, operator.Inside size := by
  refine ⟨(operator.reads ++ operator.slots).sum + 1, fun slot listed => ?_⟩
  exact Nat.lt_succ_of_le (List.le_sum_of_mem (List.mem_append.mpr listed))

/-- Proposals on a buffer of any length are for slots of the operator only. -/
theorem mem_slots_of_proposals_eq_ok (h : operator.proposals current = .ok entries)
    {entry : Nat × α} (member : entry ∈ entries) : entry.1 ∈ operator.slots := by
  obtain ⟨size, inside⟩ := operator.exists_inside
  let more : Buffer α := Array.replicate size (nat 0)
  have longer : size ≤ (current ++ more).size := by
    rw [Array.size_append, Array.size_replicate]
    exact Nat.le_add_left size _
  have made := proposals_of_extendsOn (Buffer.extendsOn_append operator.reads current more) h
  rw [proposals_eq_ok fun slot listed => (inside slot listed).trans_le longer] at made
  cases made
  exact mem_slots_of_mem_proposed member

omit [Scalar α] in
/-- Slots that no entry names are left as they are. -/
theorem getElem?_of_writeAll_eq_ok (h : writeAll next entries = .ok result) {slot : Nat}
    (foreign : slot ∉ entries.map Prod.fst) : result[slot]? = next[slot]? := by
  induction entries generalizing next with
  | nil =>
      cases h
      rfl
  | cons entry rest ih =>
      rw [List.map_cons, List.mem_cons, not_or] at foreign
      simp only [writeAll, List.foldlM_cons] at h
      by_cases inside : entry.1 < next.size
      · rw [Buffer.write, dif_pos inside] at h
        rw [ih h foreign.2, Array.getElem?_set_ne inside (Ne.symm foreign.1)]
      · rw [Buffer.write, dif_neg inside] at h
        cases h

theorem getElem?_of_eval_eq_ok (h : operator.eval current next = .ok result) {slot : Nat}
    (foreign : slot ∉ operator.slots) : result[slot]? = next[slot]? := by
  rw [eval] at h
  cases made : operator.proposals current with
  | error error =>
      rw [made] at h
      cases h
  | ok entries =>
      rw [made] at h
      apply getElem?_of_writeAll_eq_ok h
      intro named
      obtain ⟨entry, member, rfl⟩ := List.mem_map.mp named
      exact foreign (mem_slots_of_proposals_eq_ok made member)

end Writes

/-! ## Footprints -/

/-- The operator proposes the same on two buffers: the same values for the same slots, or it meets
a slot that is missing on both. -/
def ProposesAlike (operator : Operator α) (current other : Buffer α) : Prop :=
  ∀ entries, operator.proposals current = .ok entries ↔ operator.proposals other = .ok entries

theorem proposesAlike_of_agreeOn {operator : Operator α} {current other : Buffer α}
    (agree : Buffer.AgreeOn operator.reads current other) :
    operator.ProposesAlike current other := fun _ =>
  ⟨proposals_of_extendsOn agree.extendsOn, proposals_of_extendsOn agree.symm.extendsOn⟩

/-- The slots that are listed as read and as written tell what evaluation depends on and what it
changes. -/
structure KeepsToFootprint (operator : Operator α) : Prop where
  /-- Buffers that have the listed slots are enough, and then the proposals are written. -/
  evaluates : ∀ current next : Buffer α, operator.Inside current.size → next.size = current.size →
    ∃ entries result, operator.proposals current = .ok entries ∧
      writeAll next entries = .ok result ∧ operator.eval current next = .ok result
  /-- Only slots that are listed as written are changed. -/
  writes : ∀ current next result : Buffer α, operator.eval current next = .ok result →
    result.size = next.size ∧ ∀ slot ∉ operator.slots, result[slot]? = next[slot]?
  /-- Only slots that are listed as read matter. -/
  reads : ∀ current other : Buffer α, Buffer.AgreeOn operator.reads current other →
    operator.ProposesAlike current other

theorem keepsToFootprint (operator : Operator α) : operator.KeepsToFootprint where
  evaluates current next inside size := by
    obtain ⟨result, evaluated, -⟩ := eval_eq_ok inside size
    have made := proposals_eq_ok inside
    have wrote := evaluated
    rw [eval, made] at wrote
    exact ⟨_, result, made, wrote, evaluated⟩
  writes current next result h := ⟨size_of_eval_eq_ok h, fun _ => getElem?_of_eval_eq_ok h⟩
  reads current other := proposesAlike_of_agreeOn

end Operator

/-- What one operator writes and another reads belongs to different ids, unless the graph of
operators has an arc from the one to the other. -/
theorem Dependency.not_mem_slots_of_not_mem_arcs {scene : Scene α} {dependency : Dependency}
    (told : ofScene scene = .ok dependency) {i j : Nat} (apart : i ≠ j)
    (noArc : (i, j) ∉ dependency.operators.arcs) {writer reader : Operator α}
    (first : scene.operators[i]? = some writer) (second : scene.operators[j]? = some reader) :
    ∀ slot ∈ reader.reads, slot ∉ writer.slots := by
  intro slot read written
  refine noArc ((mem_arcs_iff told).mpr ⟨apart, writer, reader, first, second, ?_⟩)
  exact ⟨slot, written, slot, read, rfl⟩

/-- Every operator keeps to the slots that are listed for it. So unless the graph of operators has
an arc from one operator to another, the second proposes the same whatever the slots hold that the
first writes. -/
theorem operators_keep_to_footprints [Scalar α] :
    (∀ operator : Operator α, operator.KeepsToFootprint) ∧
      ∀ (scene : Scene α) (dependency : Dependency), Dependency.ofScene scene = .ok dependency →
        ∀ (i j : Nat) (writer reader : Operator α), i ≠ j →
          scene.operators[i]? = some writer → scene.operators[j]? = some reader →
          (i, j) ∉ dependency.operators.arcs → ∀ current other : Buffer α,
            (∀ slot ∉ writer.slots, current[slot]? = other[slot]?) →
            reader.ProposesAlike current other := by
  refine ⟨Operator.keepsToFootprint, ?_⟩
  intro scene dependency told i j writer reader apart first second noArc current other elsewhere
  apply Operator.proposesAlike_of_agreeOn
  intro slot read
  exact elsewhere slot
    (Dependency.not_mem_slots_of_not_mem_arcs told apart noArc first second slot read)

/-- A frame around the first of two rectangles that are aligned. -/
def framedRow : Scene ℚ where
  records := [Shape.record "a" (.rect 0 0 10 10 ⟨none, none, none⟩),
    Shape.record "b" (.rect 5 5 10 10 ⟨none, none, none⟩),
    Shape.record "frame" (.background 1 ⟨none, none, none⟩)]
  operators := [.alignNear [0, 4], .background 0 8 1]

/-- The alignment feeds the frame and not the other way round: wherever the frame is, the same
positions are proposed for the rectangles. -/
theorem framedRow_aligned_alike :
    ∃ dependency, Dependency.ofScene framedRow = .ok dependency ∧
      (1, 0) ∉ dependency.operators.arcs ∧
      (Operator.alignNear [0, 4] : Operator ℚ).ProposesAlike
        #[0, 0, 10, 10, 5, 5, 10, 10, 0, 0, 0, 0] #[0, 0, 10, 10, 5, 5, 10, 10, 7, 7, 3, 3] := by
  have inside : ∀ operator ∈ framedRow.operators, operator.Inside framedRow.slotCount := by
    decide
  obtain ⟨dependency, told, operators⟩ := Dependency.ofScene_eq_ok inside
  have noArc : (1, 0) ∉ dependency.operators.arcs := by
    rw [operators]
    decide +kernel
  refine ⟨dependency, told, noArc, ?_⟩
  apply operators_keep_to_footprints.2 framedRow dependency told 1 0 (.background 0 8 1) _
    one_ne_zero rfl rfl noArc
  intro slot foreign
  have outside : slot < 8 ∨ 12 ≤ slot := by
    rw [Operator.slots, Operator.mem_four] at foreign
    by_contra inside
    exact foreign ⟨slot - 8, by omega⟩
  rcases outside with before | behind
  · interval_cases slot <;> rfl
  · rw [Array.getElem?_eq_none behind, Array.getElem?_eq_none behind]

/-- Two rectangles that are aligned. -/
def alignedRow : Scene ℚ where
  records := [Shape.record "a" (.rect 0 0 10 10 ⟨none, none, none⟩),
    Shape.record "b" (.rect 5 5 10 10 ⟨none, none, none⟩)]
  operators := [.alignNear [0, 4]]

/-- The only operator of the scene has no arc to itself, but what it proposes depends on a slot that
it writes. -/
theorem alignedRow_feeds_itself :
    ∃ dependency, Dependency.ofScene alignedRow = .ok dependency ∧
      (0, 0) ∉ dependency.operators.arcs ∧
      (∀ slot ∉ (Operator.alignNear [0, 4] : Operator ℚ).slots,
        (#[0, 0, 10, 10, 5, 5, 10, 10] : Buffer ℚ)[slot]? =
          (#[3, 0, 10, 10, 5, 5, 10, 10] : Buffer ℚ)[slot]?) ∧
      ¬(Operator.alignNear [0, 4] : Operator ℚ).ProposesAlike
        #[0, 0, 10, 10, 5, 5, 10, 10] #[3, 0, 10, 10, 5, 5, 10, 10] := by
  have inside : ∀ operator ∈ alignedRow.operators, operator.Inside alignedRow.slotCount := by
    decide
  obtain ⟨dependency, told, -⟩ := Dependency.ofScene_eq_ok inside
  refine ⟨dependency, told, fun arc => ((Dependency.mem_arcs_iff told).mp arc).1 rfl, ?_, ?_⟩
  · intro slot foreign
    have other : slot ≠ 0 := fun first => foreign (first ▸ List.mem_cons_self)
    obtain ⟨rest, rfl⟩ := Nat.exists_eq_succ_of_ne_zero other
    rfl
  · intro alike
    have made := (alike [(0, 0), (4, 0)]).mp rfl
    cases made

end SceneLayout
