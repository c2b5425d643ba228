import Mathlib.Data.List.Perm.Subperm
import Mathlib.Logic.Relation
import Mathlib.Order.Monotone.Basic
import SceneLayout.Proofs.Exact

/-!
# Alignments that are chained by common slots

Near alignments may share slots, so that what one of them moves pulls along what the others hold.
With full damping no slot ever goes up, and each pass takes the least number of a slot at least one
alignment further. A shortest chain of alignments between two slots uses each of them once, so
after as many passes as there are alignments every slot holds the least number of the slots that it
is chained to, and the pass after that changes nothing.

Main statement: `chained_alignments_reach_least`.
-/

namespace SceneLayout

open Scalar

/-- Two slots are linked by a list of slots that holds both. -/
def Linked (lists : List (List Nat)) (first second : Nat) : Prop :=
  ∃ positions ∈ lists, first ∈ positions ∧ second ∈ positions

theorem Linked.mono {lists others : List (List Nat)} (among : lists ⊆ others) {first second : Nat}
    (h : Linked lists first second) : Linked others first second := by
  obtain ⟨positions, member, holds⟩ := h
  exact ⟨positions, among member, holds⟩

/-! ## Chains of lists -/

/-- The lists lead from one slot to another, each sharing a slot with the next one. -/
inductive LinkChain : List (List Nat) → Nat → Nat → Prop where
  | here (slot : Nat) : LinkChain [] slot slot
  | step {positions : List Nat} {links : List (List Nat)} {first next last : Nat}
      (holds : first ∈ positions) (leads : next ∈ positions) (rest : LinkChain links next last) :
      LinkChain (positions :: links) first last

namespace LinkChain

variable {lists links : List (List Nat)} {first last : Nat}

theorem exists_of_reflTransGen (h : Relation.ReflTransGen (Linked lists) first last) :
    ∃ links, LinkChain links first last ∧ links ⊆ lists := by
  induction h using Relation.ReflTransGen.head_induction_on with
  | refl => exact ⟨[], .here last, List.nil_subset lists⟩
  | head link _ ih =>
      obtain ⟨positions, member, holds, leads⟩ := link
      obtain ⟨links, rest, among⟩ := ih
      exact ⟨positions :: links, .step holds leads rest, List.cons_subset.mpr ⟨member, among⟩⟩

/-- A chain may be entered at any of its lists, from any slot of that list. -/
theorem exists_suffix (chain : LinkChain links first last) {positions : List Nat}
    (member : positions ∈ links) {other : Nat} (holds : other ∈ positions) :
    ∃ rest, positions :: rest <:+ links ∧ LinkChain (positions :: rest) other last := by
  induction chain with
  | here => cases member
  | step _ leads rest ih =>
      rcases List.mem_cons.mp member with rfl | later
      · exact ⟨_, List.suffix_rfl, .step holds leads rest⟩
      · obtain ⟨short, isSuffix, chain⟩ := ih later
        exact ⟨short, isSuffix.trans (List.suffix_cons _ _), chain⟩

/-- What a chain leads to is reached without using a list twice. -/
theorem exists_nodup (chain : LinkChain links first last) :
    ∃ short, LinkChain short first last ∧ short.Nodup ∧ short ⊆ links := by
  induction chain with
  | here slot => exact ⟨[], .here slot, List.nodup_nil, List.nil_subset _⟩
  | @step positions links first next last holds leads _ ih =>
      obtain ⟨short, chain, distinct, among⟩ := ih
      by_cases again : positions ∈ short
      · obtain ⟨rest, isSuffix, entered⟩ := chain.exists_suffix again holds
        refine ⟨positions :: rest, entered, distinct.sublist isSuffix.sublist, ?_⟩
        exact List.Subset.trans isSuffix.subset (List.subset_cons_of_subset positions among)
      · refine ⟨positions :: short, .step holds leads chain, distinct.cons again, ?_⟩
        exact List.cons_subset_cons positions among

/-- Some lists chain any slots that they chain at all with no more links than there are lists. -/
theorem exists_short (h : Relation.ReflTransGen (Linked lists) first last) :
    ∃ links, LinkChain links first last ∧ links ⊆ lists ∧ links.length ≤ lists.length := by
  obtain ⟨links, chain, among⟩ := exists_of_reflTransGen h
  obtain ⟨short, chain, distinct, within⟩ := chain.exists_nodup
  have used : short ⊆ lists := List.Subset.trans within among
  exact ⟨short, chain, used, (distinct.subperm used).length_le⟩

end LinkChain

/-! ## One alignment -/

namespace Operator

variable {positions : List Nat} {numbers : Nat → ℚ} {slot : Nat}

theorem written_const (positions : List Nat) (value : ℚ) (numbers : Nat → ℚ) (slot : Nat) :
    written (positions.map fun position => (position, value)) numbers slot =
      if slot ∈ positions then value else numbers slot := by
  induction positions generalizing numbers with
  | nil => rfl
  | cons first rest ih =>
      rw [List.map_cons, written_cons, ih]
      by_cases later : slot ∈ rest
      · simp [later]
      · by_cases same : slot = first
        · subst same
          simp [later]
        · simp [later, same]

theorem target_alignNear_of_mem (member : slot ∈ positions) (numbers : Nat → ℚ) :
    (alignNear positions).target numbers slot = lowest (positions.map numbers) := by
  rw [target, proposed, written_const, if_pos member]

/-- No slot goes up. -/
theorem target_alignNear_le (positions : List Nat) (numbers : Nat → ℚ) (slot : Nat) :
    (alignNear positions).target numbers slot ≤ numbers slot := by
  by_cases member : slot ∈ positions
  · rw [target_alignNear_of_mem member]
    exact lowest_le (List.mem_map_of_mem member)
  · exact (target_of_not_mem member).le

/-- Every slot goes down to each other one at least. -/
theorem target_alignNear_le_of_mem {other : Nat} (member : slot ∈ positions)
    (holds : other ∈ positions) (numbers : Nat → ℚ) :
    (alignNear positions).target numbers slot ≤ numbers other := by
  rw [target_alignNear_of_mem member]
  exact lowest_le (List.mem_map_of_mem holds)

/-- What a slot is given was held by a slot of the same list. -/
theorem exists_target_alignNear_eq (member : slot ∈ positions) (numbers : Nat → ℚ) :
    ∃ other ∈ positions, (alignNear positions).target numbers slot = numbers other := by
  have some : positions.map numbers ≠ [] := List.ne_nil_of_mem (List.mem_map_of_mem member)
  obtain ⟨other, holds, same⟩ := List.mem_map.mp (lowest_mem some)
  exact ⟨other, holds, (target_alignNear_of_mem member numbers).trans same.symm⟩

end Operator

/-! ## Passes -/

namespace Relaxation

/-- The numbers after a full pass over near alignments. -/
theorem pass_alignNear_cons (positions : List Nat) (rest : List (List Nat)) (numbers : Nat → ℚ) :
    pass 1 ((positions :: rest).map .alignNear) numbers =
      pass 1 (rest.map .alignNear) ((Operator.alignNear positions).target numbers) := by
  rw [← Operator.moved_one]
  rfl

theorem pass_alignNear_le (lists : List (List Nat)) (numbers : Nat → ℚ) (slot : Nat) :
    pass 1 (lists.map .alignNear) numbers slot ≤ numbers slot := by
  induction lists generalizing numbers with
  | nil => exact le_rfl
  | cons positions rest ih =>
      rw [pass_alignNear_cons]
      exact (ih _).trans (Operator.target_alignNear_le positions numbers slot)

/-- A pass takes every slot down to what a linked one held before. -/
theorem pass_alignNear_le_of_linked {lists : List (List Nat)} {first second : Nat}
    (linked : Linked lists first second) (numbers : Nat → ℚ) :
    pass 1 (lists.map .alignNear) numbers first ≤ numbers second := by
  induction lists generalizing numbers with
  | nil =>
      obtain ⟨_, none, _⟩ := linked
      cases none
  | cons positions rest ih =>
      rw [pass_alignNear_cons]
      obtain ⟨shared, member, holds, leads⟩ := linked
      -- The alignments before the shared one can only have lowered the second slot, and those after
      -- it can only lower the first one further.
      rcases List.mem_cons.mp member with rfl | later
      · exact (pass_alignNear_le rest _ first).trans
          (Operator.target_alignNear_le_of_mem holds leads numbers)
      · exact (ih ⟨shared, later, holds, leads⟩ _).trans
          (Operator.target_alignNear_le positions numbers second)

/-- What a slot holds after a pass was held by a slot that it is chained to. -/
theorem exists_pass_alignNear_eq (lists : List (List Nat)) (numbers : Nat → ℚ) (slot : Nat) :
    ∃ other, Relation.ReflTransGen (Linked lists) slot other ∧
      pass 1 (lists.map .alignNear) numbers slot = numbers other := by
  induction lists generalizing numbers with
  | nil => exact ⟨slot, .refl, rfl⟩
  | cons positions rest ih =>
      rw [pass_alignNear_cons]
      obtain ⟨middle, chained, held⟩ := ih ((Operator.alignNear positions).target numbers)
      have chained : Relation.ReflTransGen (Linked (positions :: rest)) slot middle :=
        Relation.ReflTransGen.mono
          (fun _ _ => Linked.mono (List.subset_cons_self positions rest)) _ _ chained
      by_cases member : middle ∈ positions
      · obtain ⟨other, holds, before⟩ := Operator.exists_target_alignNear_eq member numbers
        have link : Linked (positions :: rest) middle other :=
          ⟨positions, List.mem_cons_self, member, holds⟩
        exact ⟨other, chained.tail link, held.trans before⟩
      · exact ⟨middle, chained, held.trans (Operator.target_of_not_mem member)⟩

section After

variable {lists : List (List Nat)} {numbers : Nat → ℚ}

theorem antitone_afterPasses_alignNear (lists : List (List Nat)) (numbers : Nat → ℚ) (slot : Nat) :
    Antitone fun count => afterPasses 1 (lists.map .alignNear) numbers count slot := by
  apply antitone_nat_of_succ_le
  intro count
  rw [afterPasses_succ]
  exact pass_alignNear_le lists _ slot

/-- Each link of a chain takes one pass. -/
theorem afterPasses_alignNear_le_of_chain {links : List (List Nat)} {first last : Nat}
    (chain : LinkChain links first last) (among : links ⊆ lists) :
    afterPasses 1 (lists.map .alignNear) numbers links.length first ≤ numbers last := by
  induction chain with
  | here => exact le_rfl
  | step holds leads _ ih =>
      obtain ⟨member, others⟩ := List.cons_subset.mp among
      rw [List.length_cons, afterPasses_succ]
      exact (pass_alignNear_le_of_linked ⟨_, member, holds, leads⟩ _).trans (ih others)

theorem exists_afterPasses_alignNear_eq (lists : List (List Nat)) (numbers : Nat → ℚ)
    (count slot : Nat) :
    ∃ other, Relation.ReflTransGen (Linked lists) slot other ∧
      afterPasses 1 (lists.map .alignNear) numbers count slot = numbers other := by
  induction count generalizing slot with
  | zero => exact ⟨slot, .refl, rfl⟩
  | succ count ih =>
      rw [afterPasses_succ]
      obtain ⟨middle, chained, held⟩ := exists_pass_alignNear_eq lists
        (afterPasses 1 (lists.map .alignNear) numbers count) slot
      obtain ⟨other, further, before⟩ := ih middle
      exact ⟨other, chained.trans further, held.trans before⟩

/-- After as many passes as there are alignments every slot holds the least number of those that it
is chained to. -/
theorem isLeast_afterPasses_alignNear {count : Nat} (enough : lists.length ≤ count) (slot : Nat) :
    IsLeast {value | ∃ other, Relation.ReflTransGen (Linked lists) slot other ∧
        numbers other = value}
      (afterPasses 1 (lists.map .alignNear) numbers count slot) := by
  constructor
  · obtain ⟨other, chained, held⟩ := exists_afterPasses_alignNear_eq lists numbers count slot
    exact ⟨other, chained, held.symm⟩
  · rintro value ⟨other, chained, rfl⟩
    obtain ⟨links, chain, among, short⟩ := LinkChain.exists_short chained
    exact (antitone_afterPasses_alignNear lists numbers slot (short.trans enough)).trans
      (afterPasses_alignNear_le_of_chain chain among)

/-- So one more pass changes nothing. -/
theorem pass_afterPasses_alignNear (lists : List (List Nat)) (numbers : Nat → ℚ) :
    pass 1 (lists.map .alignNear) (afterPasses 1 (lists.map .alignNear) numbers lists.length) =
      afterPasses 1 (lists.map .alignNear) numbers lists.length := by
  ext slot
  rw [← afterPasses_succ]
  exact (isLeast_afterPasses_alignNear (Nat.le_succ _) slot).unique
    (isLeast_afterPasses_alignNear le_rfl slot)

/-- An alignment that is part of a pass without effect has none itself. -/
theorem target_eq_of_pass_alignNear_eq
    (unchanged : pass 1 (lists.map .alignNear) numbers = numbers) :
    ∀ operator ∈ lists.map Operator.alignNear, operator.target numbers = numbers := by
  induction lists with
  | nil => exact List.forall_mem_nil _
  | cons positions rest ih =>
      rw [pass_alignNear_cons] at unchanged
      have same : (Operator.alignNear positions).target numbers = numbers := by
        ext slot
        apply le_antisymm (Operator.target_alignNear_le positions numbers slot)
        calc
          numbers slot
              = pass 1 (rest.map .alignNear) ((Operator.alignNear positions).target numbers) slot :=
                (congrFun unchanged slot).symm
          _ ≤ (Operator.alignNear positions).target numbers slot := pass_alignNear_le rest _ slot
      rw [same] at unchanged
      exact List.forall_mem_cons.mpr ⟨same, ih unchanged⟩

/-- The pass after as many as there are alignments makes no change. -/
theorem residualAfter_alignNear (lists : List (List Nat)) (numbers : Nat → ℚ) :
    residualAfter 1 (lists.map .alignNear) numbers (lists.length + 1) = some 0 := by
  have still := target_eq_of_pass_alignNear_eq (pass_afterPasses_alignNear lists numbers)
  rw [residualAfter, passResidual_eq_zero_of_target_eq still]

end After

end Relaxation

/-! ## Relaxation -/

section Relax

variable {lists : List (List Nat)} {size : Nat}
  (inside : ∀ positions ∈ lists, ∀ slot ∈ positions, slot < size)
include inside

theorem lt_of_chained {slot other : Nat} (chained : Relation.ReflTransGen (Linked lists) slot other)
    (small : slot < size) : other < size := by
  cases chained with
  | refl => exact small
  | tail _ link =>
      obtain ⟨positions, member, -, leads⟩ := link
      exact inside positions member other leads

theorem inside_alignNear :
    ∀ operator ∈ lists.map (Operator.alignNear (α := ℚ)), operator.Inside size := by
  intro operator member slot touched
  obtain ⟨positions, listed, rfl⟩ := List.mem_map.mp member
  exact inside positions listed slot (touched.elim id id)

end Relax

/-- Relaxed with full damping under any near alignments, `m` of them, the buffer comes to rest
within `m + 1` passes. Every slot then holds the least number of those that it is chained to. -/
theorem chained_alignments_reach_least {lists : List (List Nat)} {buffer : Buffer ℚ}
    (inside : ∀ positions ∈ lists, ∀ slot ∈ positions, slot < buffer.size) {budget : Nat}
    (enough : lists.length + 1 ≤ budget) :
    ∃ final stats,
      relax ⟨budget, 0, 1⟩ (lists.map .alignNear) buffer = .ok (final, stats) ∧
      stats.converged = true ∧ stats.residual = some 0 ∧ stats.passes ≤ lists.length + 1 ∧
      final.size = buffer.size ∧
      (∀ slot < buffer.size, ∃ least, final[slot]? = some least ∧
        IsLeast {value | ∃ other, Relation.ReflTransGen (Linked lists) slot other ∧
          buffer[other]? = some value} least) ∧
      ∀ slot, (∀ positions ∈ lists, slot ∉ positions) → final[slot]? = buffer[slot]? := by
  obtain ⟨final, stats, ran, converged, residual, few, size, reached, -⟩ :=
    Relaxation.relax_comes_to_rest (inside_alignNear inside)
      (Relaxation.residualAfter_alignNear lists buffer.numbers) enough
  refine ⟨final, stats, ran, converged, residual, few, size, ?_, ?_⟩
  · intro slot small
    refine ⟨final.numbers slot, Buffer.getElem?_eq_numbers (size ▸ small), ?_⟩
    have held (other : Nat) (chained : Relation.ReflTransGen (Linked lists) slot other) :
        buffer[other]? = some (buffer.numbers other) :=
      Buffer.getElem?_eq_numbers (lt_of_chained inside chained small)
    have least : IsLeast {value | ∃ other, Relation.ReflTransGen (Linked lists) slot other ∧
        buffer.numbers other = value} (final.numbers slot) := by
      rw [reached]
      exact Relaxation.isLeast_afterPasses_alignNear (Nat.le_succ lists.length) slot
    obtain ⟨⟨other, chained, same⟩, below⟩ := least
    constructor
    · exact ⟨other, chained, (held other chained).trans (congrArg some same)⟩
    · rintro value ⟨other, chained, atOther⟩
      exact below ⟨other, chained, Option.some.inj ((held other chained).symm.trans atOther)⟩
  · intro slot foreign
    have unowned : ∀ operator ∈ lists.map (Operator.alignNear (α := ℚ)),
        slot ∉ operator.slots := by
      intro operator member
      obtain ⟨positions, listed, rfl⟩ := List.mem_map.mp member
      exact foreign positions listed
    apply Buffer.getElem?_eq_of_numbers_eq size
    rw [reached, Relaxation.afterPasses_of_not_mem unowned]

/-- Four notes in a column, each aligned with the next one, the upper ones first. -/
def alignedSteps : List (List Nat) := [[0, 4], [4, 8], [8, 12]]

/-- Each note is indented less than the one above it. -/
def alignedStepsBuffer : Buffer ℚ := #[6, 0, 9, 1, 4, 1, 9, 1, 2, 2, 9, 1, 0, 3, 9, 1]

/-- The indentation of the lowest note comes up to the highest one within four passes. -/
theorem chained_alignments_reach_least_alignedSteps :
    (∀ positions ∈ alignedSteps, ∀ slot ∈ positions, slot < alignedStepsBuffer.size) ∧
    ∃ final stats,
      relax ⟨4, 0, 1⟩ (alignedSteps.map .alignNear) alignedStepsBuffer = .ok (final, stats) ∧
      stats.residual = some 0 ∧ stats.passes ≤ 4 ∧ final[0]? = some 0 ∧ final[5]? = some 1 := by
  have inside : ∀ positions ∈ alignedSteps, ∀ slot ∈ positions,
      slot < alignedStepsBuffer.size := by decide
  have nonneg : ∀ value ∈ alignedStepsBuffer, 0 ≤ value := by decide
  obtain ⟨final, stats, ran, -, residual, few, -, reached, others⟩ :=
    chained_alignments_reach_least inside (Nat.le_refl 4)
  refine ⟨inside, final, stats, ran, residual, few, ?_, others 5 (by decide)⟩
  obtain ⟨least, atEnd, ⟨other, _, held⟩, below⟩ := reached 0 (by decide)
  have linked : ∀ first second : Nat, [first, second] ∈ alignedSteps →
      Linked alignedSteps first second :=
    fun first second listed => ⟨[first, second], listed, by simp, by simp⟩
  have chained : Relation.ReflTransGen (Linked alignedSteps) 0 12 :=
    .head (linked 0 4 (by decide)) (.head (linked 4 8 (by decide))
      (.single (linked 8 12 (by decide))))
  have zero : least = 0 :=
    le_antisymm (below ⟨12, chained, rfl⟩) (nonneg least (Array.mem_of_getElem? held))
  rw [atEnd, zero]

end SceneLayout
