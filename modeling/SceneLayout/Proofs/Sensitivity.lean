import Mathlib.Data.List.Forall2
import Mathlib.Tactic.FieldSimp
import Mathlib.Tactic.Positivity
import SceneLayout.Proofs.Exact

/-!
# How strongly proposals react to the numbers they are made from

When the numbers at all slots change by at most `δ`, what an operator proposes changes
by at most `gain * δ`. Three is enough for the operators that take each entry by itself;
the running sums of a distribution with spacing and of a stack need the number of
entries.

Main statement: `Operator.abs_target_sub_le`.
-/

namespace SceneLayout

open Scalar

/-- Entries for the same slots in the same order, with numbers at most `bound` apart. -/
def EntriesWithin (bound : ℚ) : List (Nat × ℚ) → List (Nat × ℚ) → Prop :=
  List.Forall₂ fun first second => first.1 = second.1 ∧ |first.2 - second.2| ≤ bound

namespace EntriesWithin

theorem of_map {β : Type*} {slot : β → Nat} {f g : β → ℚ} {items : List β} {bound : ℚ}
    (h : ∀ item ∈ items, |f item - g item| ≤ bound) :
    EntriesWithin bound (items.map fun item => (slot item, f item))
      (items.map fun item => (slot item, g item)) := by
  rw [EntriesWithin, List.forall₂_map_left_iff, List.forall₂_map_right_iff, List.forall₂_same]
  intro item member
  exact ⟨rfl, h item member⟩

/-- Writing entries keeps numbers together that were together. -/
theorem abs_written_sub_le {bound : ℚ} {first second : List (Nat × ℚ)}
    (h : EntriesWithin bound first second) {numbers other : Nat → ℚ} {slot : Nat}
    (start : |numbers slot - other slot| ≤ bound) :
    |written first numbers slot - written second other slot| ≤ bound := by
  induction h generalizing numbers other with
  | nil => exact start
  | @cons a b first second head _ ih =>
      rw [written_cons, written_cons]
      apply ih
      rw [head.1]
      by_cases same : slot = b.1
      · subst same
        rw [Function.update_self, Function.update_self]
        exact head.2
      · rw [Function.update_of_ne same, Function.update_of_ne same]
        exact start

end EntriesWithin

namespace Operator

/-- The number of entries that the operator arranges. -/
def entries {α : Type*} : Operator α → Nat
  | alignNear positions => positions.length
  | alignFar spans => spans.length
  | alignCenter spans => spans.length
  | centerOn _ spans => spans.length
  | distribute spans _ => spans.length
  | background _ _ _ => 1
  | stack _ children _ _ _ => children.length

/-- How many times a change of the numbers may show in a proposal. -/
def gain {α : Type*} (operator : Operator α) : Nat := max 3 operator.entries

section Folds

variable {β : Type*} {f g : β → ℚ} {items : List β} {δ : ℚ}

theorem lowest_map_le_add (h : ∀ item ∈ items, |f item - g item| ≤ δ) (some : items ≠ []) :
    lowest (items.map f) ≤ lowest (items.map g) + δ := by
  have nonempty : items.map g ≠ [] := by simpa using some
  obtain ⟨item, member, same⟩ := List.mem_map.mp (lowest_mem nonempty)
  have below : lowest (items.map f) ≤ f item := lowest_le (List.mem_map_of_mem member)
  have near := (abs_le.mp (h item member)).2
  linarith

theorem highest_map_le_add (h : ∀ item ∈ items, |f item - g item| ≤ δ) (some : items ≠ []) :
    highest (items.map f) ≤ highest (items.map g) + δ := by
  have nonempty : items.map f ≠ [] := by simpa using some
  obtain ⟨item, member, same⟩ := List.mem_map.mp (highest_mem nonempty)
  have above : g item ≤ highest (items.map g) := le_highest (List.mem_map_of_mem member)
  have near := (abs_le.mp (h item member)).2
  linarith

theorem abs_lowest_sub_le (h : ∀ item ∈ items, |f item - g item| ≤ δ) (some : items ≠ []) :
    |lowest (items.map f) - lowest (items.map g)| ≤ δ := by
  have back : ∀ item ∈ items, |g item - f item| ≤ δ := fun item member => by
    rw [abs_sub_comm]
    exact h item member
  have upper := lowest_map_le_add h some
  have lower := lowest_map_le_add back some
  rw [abs_le]
  constructor <;> linarith

theorem abs_highest_sub_le (h : ∀ item ∈ items, |f item - g item| ≤ δ) (some : items ≠ []) :
    |highest (items.map f) - highest (items.map g)| ≤ δ := by
  have back : ∀ item ∈ items, |g item - f item| ≤ δ := fun item member => by
    rw [abs_sub_comm]
    exact h item member
  have upper := highest_map_le_add h some
  have lower := highest_map_le_add back some
  rw [abs_le]
  constructor <;> linarith

theorem abs_foldl_add_sub_le (h : ∀ item ∈ items, |f item - g item| ≤ δ) {a b p : ℚ}
    (start : |a - b| ≤ p) :
    |items.foldl (fun sum item => sum + f item) a - items.foldl (fun sum item => sum + g item) b| ≤
      p + items.length * δ := by
  induction items generalizing a b p with
  | nil => simpa using start
  | cons item rest ih =>
      have here := h item (by simp)
      have next : |(a + f item) - (b + g item)| ≤ p + δ := by
        rw [abs_le] at *
        constructor <;> linarith
      have others := ih (fun other member => h other (by simp [member])) next
      rw [List.foldl_cons, List.foldl_cons, List.length_cons]
      push_cast
      linarith

end Folds

section Within

variable {first second : Nat → ℚ} {δ : ℚ}

theorem abs_farEdge_sub_le (within : ∀ slot, |first slot - second slot| ≤ δ) (span : Span) :
    |farEdge first span - farEdge second span| ≤ 2 * δ := by
  have position := within span.position
  have extent := within span.extent
  rw [farEdge, farEdge]
  rw [abs_le] at *
  constructor <;> linarith

theorem abs_centerOf_sub_le (within : ∀ slot, |first slot - second slot| ≤ δ) (span : Span) :
    |centerOf first span - centerOf second span| ≤ 3 / 2 * δ := by
  have position := within span.position
  have extent := within span.extent
  rw [centerOf, centerOf, nat_eq_cast]
  push_cast
  rw [abs_le] at *
  constructor <;> linarith

theorem abs_meanCenter_sub_le (within : ∀ slot, |first slot - second slot| ≤ δ)
    {spans : List Span} (some : spans ≠ []) :
    |meanCenter first spans - meanCenter second spans| ≤ 3 / 2 * δ := by
  have count : (0 : ℚ) < spans.length := by
    exact_mod_cast List.length_pos_iff.mpr some
  have start : |(nat 0 : ℚ) - nat 0| ≤ 0 := by simp
  have sums := abs_foldl_add_sub_le (fun span (_ : span ∈ spans) =>
    abs_centerOf_sub_le within span) start
  rw [meanCenter, meanCenter, nat_eq_cast, ← sub_div, abs_div, abs_of_pos count,
    div_le_iff₀ count]
  linarith

theorem entriesWithin_centered (within : ∀ slot, |first slot - second slot| ≤ δ)
    {center other : ℚ} (near : |center - other| ≤ 3 / 2 * δ) (spans : List Span) :
    EntriesWithin (3 * δ) (centered first center spans) (centered second other spans) := by
  apply EntriesWithin.of_map
  intro span _
  have extent := within span.extent
  have nonneg : 0 ≤ δ := (abs_nonneg _).trans extent
  rw [nat_eq_cast]
  push_cast
  rw [abs_le] at *
  constructor <;> linarith

theorem entriesWithin_spaced (within : ∀ slot, |first slot - second slot| ≤ δ) (spacing : ℚ)
    {spans : List Span} {place other p bound : ℚ} (start : |place - other| ≤ p)
    (enough : p + spans.length * δ ≤ bound) :
    EntriesWithin bound (spaced first spacing place spans) (spaced second spacing other spans) := by
  have nonneg : 0 ≤ δ := (abs_nonneg _).trans (within 0)
  induction spans generalizing place other p with
  | nil => exact .nil
  | cons span rest ih =>
      have extent := within span.extent
      have next : |(place - (first span.extent + spacing)) -
          (other - (second span.extent + spacing))| ≤ p + δ := by
        rw [abs_le] at *
        constructor <;> linarith
      rw [List.length_cons] at enough
      push_cast at enough
      have rests : 0 ≤ (rest.length : ℚ) * δ := by positivity
      exact .cons ⟨rfl, next.trans (by linarith)⟩ (ih next (by linarith))

theorem abs_acrossPlace_sub_le (alignment : Alignment) {room other thickness thinness : ℚ}
    (rooms : |room - other| ≤ δ) (across : |thickness - thinness| ≤ δ) :
    |acrossPlace alignment room thickness - acrossPlace alignment other thinness| ≤ 2 * δ := by
  have nonneg : 0 ≤ δ := (abs_nonneg _).trans rooms
  cases alignment with
  | start => simpa [acrossPlace] using nonneg
  | center =>
      simp only [acrossPlace, nat_eq_cast]
      push_cast
      rw [abs_le] at *
      constructor <;> linarith
  | finish =>
      simp only [acrossPlace]
      rw [abs_le] at *
      constructor <;> linarith

theorem entriesWithin_stacked (within : ∀ slot, |first slot - second slot| ≤ δ) (axis : Axis)
    (spacing : ℚ) (alignment : Alignment) {room elsewhere : ℚ} (rooms : |room - elsewhere| ≤ δ)
    {children : List Nat} {place other p bound : ℚ} (start : |place - other| ≤ p)
    (enough : p + children.length * δ ≤ bound) (across : 2 * δ ≤ bound) :
    EntriesWithin bound (stacked first axis spacing alignment room place children)
      (stacked second axis spacing alignment elsewhere other children) := by
  have nonneg : 0 ≤ δ := (abs_nonneg _).trans (within 0)
  induction children generalizing place other p with
  | nil => exact .nil
  | cons base rest ih =>
      have extent := within (base + axis.extent)
      have next : |(place + (first (base + axis.extent) + spacing)) -
          (other + (second (base + axis.extent) + spacing))| ≤ p + δ := by
        rw [abs_le] at *
        constructor <;> linarith
      rw [List.length_cons] at enough
      push_cast at enough
      have rests : 0 ≤ (rest.length : ℚ) * δ := by positivity
      refine .cons ⟨rfl, start.trans (by linarith)⟩ (.cons ⟨rfl, ?_⟩ (ih next (by linarith)))
      exact (abs_acrossPlace_sub_le alignment rooms (within _)).trans across

theorem abs_stackEnd_sub_le (within : ∀ slot, |first slot - second slot| ≤ δ) (axis : Axis)
    (spacing : ℚ) (children : List Nat) :
    |stackEnd first axis spacing (nat 0) children - stackEnd second axis spacing (nat 0) children| ≤
      children.length * δ := by
  have start : |(nat 0 : ℚ) - nat 0| ≤ 0 := by simp
  have sums := abs_foldl_add_sub_le (f := fun base => first (base + axis.extent) + spacing)
    (g := fun base => second (base + axis.extent) + spacing) (fun base (_ : base ∈ children) => by
      have extent := within (base + axis.extent)
      rwa [add_sub_add_right_eq_sub]) start
  rw [zero_add] at sums
  exact sums

theorem abs_stackWidest_sub_le (within : ∀ slot, |first slot - second slot| ≤ δ) (axis : Axis)
    (children : List Nat) :
    |stackWidest first axis (nat 0) children - stackWidest second axis (nat 0) children| ≤ δ := by
  have nonneg : 0 ≤ δ := (abs_nonneg _).trans (within 0)
  -- The zero that the fold starts from counts as one more child.
  let across (numbers : Nat → ℚ) (child : Option Nat) : ℚ :=
    child.elim (nat 0) fun base => numbers (base + axis.cross.extent)
  have widest : ∀ numbers : Nat → ℚ, stackWidest numbers axis (nat 0) children =
      highest ((none :: children.map some).map (across numbers)) := by
    intro numbers
    rw [List.map_cons, List.map_map]
    rfl
  rw [widest, widest]
  apply abs_highest_sub_le _ (by simp)
  intro child _
  cases child with
  | none => simpa [across] using nonneg
  | some base => exact within _

/-- A place between the least and the greatest of some numbers moves no more than these do. -/
theorem abs_between_sub_le {lo hi lo' hi' t : ℚ} (least : |lo - lo'| ≤ δ) (most : |hi - hi'| ≤ δ)
    (nonneg : 0 ≤ t) (le_one : t ≤ 1) :
    |(lo + t * (hi - lo)) - (lo' + t * (hi' - lo'))| ≤ δ := by
  have split : (lo + t * (hi - lo)) - (lo' + t * (hi' - lo')) =
      (1 - t) * (lo - lo') + t * (hi - hi') := by ring
  calc
    |(lo + t * (hi - lo)) - (lo' + t * (hi' - lo'))|
        ≤ |(1 - t) * (lo - lo')| + |t * (hi - hi')| := by
          rw [split]
          exact abs_add_le _ _
    _ = (1 - t) * |lo - lo'| + t * |hi - hi'| := by
          rw [abs_mul, abs_mul, abs_of_nonneg nonneg, abs_of_nonneg (by linarith)]
    _ ≤ (1 - t) * δ + t * δ :=
          add_le_add (mul_le_mul_of_nonneg_left least (by linarith))
            (mul_le_mul_of_nonneg_left most nonneg)
    _ = δ := by ring

theorem entriesWithin_spreadProposals {place other step pace : ℚ} {spans : List Span} {index : Nat}
    (near : ∀ k, k < index + spans.length →
      |(place + k * step) - (other + k * pace)| ≤ δ) :
    EntriesWithin δ (spreadProposals place step index spans)
      (spreadProposals other pace index spans) := by
  induction spans generalizing index with
  | nil => exact .nil
  | cons span rest ih =>
      rw [List.length_cons] at near
      refine .cons ⟨rfl, near index (by omega)⟩ (ih fun k small => near k (by omega))

theorem entriesWithin_spread (within : ∀ slot, |first slot - second slot| ≤ δ) {spans : List Span}
    (several : ¬spans.length < 2) :
    EntriesWithin δ
      (spreadProposals (lowest (spans.map fun span => first span.position))
        (spreadStep (spans.map fun span => first span.position)) 0 spans)
      (spreadProposals (lowest (spans.map fun span => second span.position))
        (spreadStep (spans.map fun span => second span.position)) 0 spans) := by
  have some : spans ≠ [] := by
    rintro rfl
    simp at several
  have near : ∀ span ∈ spans, |first span.position - second span.position| ≤ δ :=
    fun span _ => within span.position
  have count : (0 : ℚ) < (spans.length - 1 : Nat) := by
    have positive : 0 < spans.length - 1 := by omega
    exact_mod_cast positive
  apply entriesWithin_spreadProposals
  intro k small
  have fraction : (k : ℚ) ≤ (spans.length - 1 : Nat) := by
    have bounded : k ≤ spans.length - 1 := by omega
    exact_mod_cast bounded
  have between := abs_between_sub_le (abs_lowest_sub_le near some) (abs_highest_sub_le near some)
    (div_nonneg (Nat.cast_nonneg k) count.le) ((div_le_one count).mpr fraction)
  have rearranged : ∀ lo hi count : ℚ,
      lo + k * ((hi - lo) / count) = lo + k / count * (hi - lo) := by
    intro lo hi count
    ring
  simp only [spreadStep, nat_eq_cast, List.length_map, rearranged]
  exact between

theorem entriesWithin_background (within : ∀ slot, |first slot - second slot| ≤ δ)
    (child box : Nat) (padding : ℚ) {bound : ℚ} (enough : δ ≤ bound) :
    EntriesWithin bound ((background child box padding).proposed first)
      ((background child box padding).proposed second) := by
  have position : ∀ slot, |(first slot - padding) - (second slot - padding)| ≤ bound := by
    intro slot
    rw [sub_sub_sub_cancel_right]
    exact (within slot).trans enough
  have extent : ∀ slot,
      |(first slot + padding * nat 2) - (second slot + padding * nat 2)| ≤ bound := by
    intro slot
    rw [add_sub_add_right_eq_sub]
    exact (within slot).trans enough
  exact .cons ⟨rfl, position child⟩ (.cons ⟨rfl, position (child + 1)⟩
    (.cons ⟨rfl, extent (child + 2)⟩ (.cons ⟨rfl, extent (child + 3)⟩ .nil)))

theorem entriesWithin_stack (within : ∀ slot, |first slot - second slot| ≤ δ) (axis : Axis)
    (children : List Nat) (container : Nat) (spacing : ℚ) (alignment : Alignment) {bound : ℚ}
    (three : 3 * δ ≤ bound) (count : children.length * δ ≤ bound) :
    EntriesWithin bound ((stack axis children container spacing alignment).proposed first)
      ((stack axis children container spacing alignment).proposed second) := by
  have nonneg : 0 ≤ δ := (abs_nonneg _).trans (within 0)
  have start : |(nat 0 : ℚ) - nat 0| ≤ 0 := by simp
  have placed := entriesWithin_stacked within axis spacing alignment
    (within (container + axis.cross.extent)) start ((zero_add _).trans_le count)
    (le_trans (by linarith) three)
  have length : |(if children.isEmpty then nat 0
        else stackEnd first axis spacing (nat 0) children - spacing) -
      (if children.isEmpty then nat 0
        else stackEnd second axis spacing (nat 0) children - spacing)| ≤ bound := by
    by_cases empty : children.isEmpty = true
    · rw [if_pos empty, if_pos empty, sub_self, abs_zero]
      linarith
    · rw [if_neg empty, if_neg empty, sub_sub_sub_cancel_right]
      exact (abs_stackEnd_sub_le within axis spacing children).trans count
  have widest : |stackWidest first axis (nat 0) children -
      stackWidest second axis (nat 0) children| ≤ bound :=
    (abs_stackWidest_sub_le within axis children).trans (by linarith)
  exact List.rel_append placed (.cons ⟨rfl, length⟩ (.cons ⟨rfl, widest⟩ .nil))

/-- What an operator proposes changes by at most `gain` times the change of the numbers. -/
theorem entriesWithin_proposed (within : ∀ slot, |first slot - second slot| ≤ δ)
    (operator : Operator ℚ) :
    EntriesWithin (operator.gain * δ) (operator.proposed first) (operator.proposed second) := by
  have nonneg : 0 ≤ δ := (abs_nonneg _).trans (within 0)
  have three : 3 * δ ≤ operator.gain * δ := by
    apply mul_le_mul_of_nonneg_right _ nonneg
    exact_mod_cast Nat.le_max_left 3 operator.entries
  have count : operator.entries * δ ≤ operator.gain * δ := by
    apply mul_le_mul_of_nonneg_right _ nonneg
    exact_mod_cast Nat.le_max_right 3 operator.entries
  cases operator with
  | alignNear positions =>
      apply EntriesWithin.of_map
      intro position member
      have near := abs_lowest_sub_le (fun slot (_ : slot ∈ positions) => within slot)
        (List.ne_nil_of_mem member)
      linarith
  | alignFar spans =>
      apply EntriesWithin.of_map
      intro span member
      have edge := abs_highest_sub_le (fun span (_ : span ∈ spans) =>
        abs_farEdge_sub_le within span) (List.ne_nil_of_mem member)
      have extent := within span.extent
      rw [abs_le] at *
      constructor <;> linarith
  | alignCenter spans =>
      by_cases empty : spans = []
      · subst empty
        exact .nil
      · have near := entriesWithin_centered within (abs_meanCenter_sub_le within empty) spans
        exact near.imp fun _ _ entry => ⟨entry.1, entry.2.trans three⟩
  | centerOn anchor spans =>
      have near := entriesWithin_centered within (abs_centerOf_sub_le within anchor) spans
      exact near.imp fun _ _ entry => ⟨entry.1, entry.2.trans three⟩
  | distribute spans spacing =>
      simp only [proposed]
      by_cases few : spans.length < 2
      · rw [if_pos few, if_pos few]
        exact .nil
      · rw [if_neg few, if_neg few]
        by_cases positive : lt (nat 0) spacing = true
        · rw [if_pos positive, if_pos positive]
          cases backwards : spans.reverse with
          | nil => exact .nil
          | cons last others =>
              have length : spans.length = others.length + 1 := by
                rw [← List.length_reverse, backwards, List.length_cons]
              have place := within last.position
              rw [entries, length] at count
              push_cast at count
              refine .cons ⟨rfl, place.trans (by linarith)⟩ ?_
              exact entriesWithin_spaced within spacing place (by linarith)
        · rw [if_neg positive, if_neg positive]
          have near := entriesWithin_spread within few
          exact near.imp fun _ _ entry => ⟨entry.1, entry.2.trans (by linarith)⟩
  | background child box padding =>
      exact entriesWithin_background within child box padding (by linarith)
  | stack axis children container spacing alignment =>
      exact entriesWithin_stack within axis children container spacing alignment three count

/-- What would stand at any slot changes by at most `gain` times the change of the numbers. -/
theorem abs_target_sub_le (within : ∀ slot, |first slot - second slot| ≤ δ)
    (operator : Operator ℚ) (slot : Nat) :
    |operator.target first slot - operator.target second slot| ≤ operator.gain * δ := by
  have nonneg : 0 ≤ δ := (abs_nonneg _).trans (within 0)
  apply (entriesWithin_proposed within operator).abs_written_sub_le
  calc
    |first slot - second slot| ≤ 1 * δ := by
      rw [one_mul]
      exact within slot
    _ ≤ operator.gain * δ := by
      apply mul_le_mul_of_nonneg_right _ nonneg
      have three : 3 ≤ operator.gain := Nat.le_max_left 3 operator.entries
      exact_mod_cast le_trans (by decide) three

end Within

end Operator

end SceneLayout
