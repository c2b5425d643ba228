import SceneLayout.Proofs.Placement

/-!
# The ends of an even spread

Spans that are spread without a spacing are given even places between the least and the
greatest of their positions, in the order in which they are listed. Partial moves towards
these places never lead out of what the positions cover. They keep the least position
exactly if the first span has it, and the greatest exactly if the last span has it; if
other spans have them, the ends move inwards with the first pass and never come back.

Main statements: `spread_keeps_ends_iff`, `reversedPair_meets`.

## Implementation notes

What is shown of the lower end holds of the upper one by reflection: positions that are
negated and taken in reverse order are spread to the reflected places.
-/

namespace SceneLayout

open Scalar

/-- The positions of spans, in the order of the spans. -/
def Span.places (spans : List Span) (numbers : Nat → ℚ) : List ℚ :=
  spans.map fun span => numbers span.position

namespace Operator

/-- Positions after each has been moved part of the way to its place in the even spread. -/
def spreadOnce (damping : ℚ) (values : List ℚ) : List ℚ :=
  values.mapIdx fun k value => value + damping * (lowest values + k * spreadStep values - value)

/-- The lower end can be kept: all of the way is made, or the first position is the least. -/
def KeepsLowest (damping : ℚ) (values : List ℚ) : Prop :=
  damping = 1 ∨ values.head? = some (lowest values)

variable {damping : ℚ} {values : List ℚ}

@[simp] theorem length_spreadOnce (damping : ℚ) (values : List ℚ) :
    (spreadOnce damping values).length = values.length := List.length_mapIdx

theorem spreadOnce_ne_nil (nonempty : values ≠ []) : spreadOnce damping values ≠ [] := by
  rw [← List.length_pos_iff, length_spreadOnce, List.length_pos_iff]
  exact nonempty

theorem getElem_spreadOnce {k : Nat} (h : k < (spreadOnce damping values).length)
    (inside : k < values.length) :
    (spreadOnce damping values)[k] =
      values[k] + damping * (lowest values + k * spreadStep values - values[k]) :=
  List.getElem_mapIdx

/-- A moved position is above the lower end by a part of what it was above it and a part of its
steps. -/
theorem getElem_spreadOnce_sub_lowest {k : Nat} (h : k < (spreadOnce damping values).length)
    (inside : k < values.length) :
    (spreadOnce damping values)[k] - lowest values =
      (1 - damping) * (values[k] - lowest values) + damping * (k * spreadStep values) := by
  rw [getElem_spreadOnce h inside]
  ring

/-! ## The lower end -/

theorem sub_lowest_nonneg {k : Nat} (inside : k < values.length) :
    0 ≤ values[k] - lowest values :=
  sub_nonneg.mpr (lowest_le (List.getElem_mem inside))

theorem steps_nonneg (k : Nat) (values : List ℚ) : 0 ≤ (k : ℚ) * spreadStep values :=
  mul_nonneg (Nat.cast_nonneg k) (spreadStep_nonneg values)

theorem lowest_le_of_mem_spreadOnce (nonneg : 0 ≤ damping) (partly : damping ≤ 1) {place : ℚ}
    (member : place ∈ spreadOnce damping values) : lowest values ≤ place := by
  obtain ⟨k, inside, rfl⟩ := List.mem_iff_getElem.mp member
  have listed : k < values.length := by rwa [length_spreadOnce] at inside
  rw [← sub_nonneg, getElem_spreadOnce_sub_lowest inside listed]
  exact add_nonneg (mul_nonneg (sub_nonneg.mpr partly) (sub_lowest_nonneg listed))
    (mul_nonneg nonneg (steps_nonneg k values))

theorem lowest_le_lowest_spreadOnce (nonneg : 0 ≤ damping) (partly : damping ≤ 1)
    (nonempty : values ≠ []) : lowest values ≤ lowest (spreadOnce damping values) :=
  lowest_le_of_mem_spreadOnce nonneg partly (lowest_mem (spreadOnce_ne_nil nonempty))

/-- If the lower end can be kept, the first position is put there. -/
theorem head?_spreadOnce_of_keepsLowest (h : KeepsLowest damping values) (nonempty : values ≠ []) :
    (spreadOnce damping values).head? = some (lowest values) := by
  obtain ⟨first, rest, rfl⟩ := List.exists_cons_of_ne_nil nonempty
  rw [spreadOnce, List.mapIdx_cons, List.head?_cons, Option.some.injEq]
  rcases h with rfl | least
  · ring
  · rw [List.head?_cons, Option.some.injEq] at least
    rw [← least]
    ring

/-- Without steps all positions are the same. -/
theorem eq_lowest_of_spreadStep_eq_zero (two : 2 ≤ values.length) (zero : spreadStep values = 0)
    {value : ℚ} (member : value ∈ values) : value = lowest values := by
  have ends := lowest_add_steps two
  rw [zero, mul_zero, add_zero] at ends
  exact le_antisymm (ends ▸ le_highest member) (lowest_le member)

/-- One partial move keeps the lower end exactly if it can be kept. -/
theorem lowest_spreadOnce_eq_iff (positive : 0 < damping) (partly : damping ≤ 1)
    (two : 2 ≤ values.length) :
    lowest (spreadOnce damping values) = lowest values ↔ KeepsLowest damping values := by
  have nonempty : values ≠ [] := List.ne_nil_of_length_pos (by omega)
  constructor
  · intro kept
    refine or_iff_not_imp_left.mpr fun notAll => ?_
    have part : 0 < 1 - damping := sub_pos.mpr (lt_of_le_of_ne partly notAll)
    have attained : lowest values ∈ spreadOnce damping values :=
      kept ▸ lowest_mem (spreadOnce_ne_nil nonempty)
    -- The span that is at the lower end now was there before, and has no step to make.
    obtain ⟨k, inside, lowestAt⟩ := List.mem_iff_getElem.mp attained
    have listed : k < values.length := by rwa [length_spreadOnce] at inside
    have before := mul_nonneg part.le (sub_lowest_nonneg listed)
    have ahead := mul_nonneg positive.le (steps_nonneg k values)
    have distance := getElem_spreadOnce_sub_lowest inside listed
    rw [lowestAt, sub_self, eq_comm, add_eq_zero_iff_of_nonneg before ahead,
      mul_eq_zero_iff_left part.ne', mul_eq_zero_iff_left positive.ne', mul_eq_zero] at distance
    obtain ⟨here, first | noStep⟩ := distance
    · obtain rfl : k = 0 := Nat.cast_eq_zero.mp first
      rw [List.head?_eq_getElem?, List.getElem?_eq_getElem listed, sub_eq_zero.mp here]
    · have all := eq_lowest_of_spreadStep_eq_zero two noStep (List.head_mem nonempty)
      rw [List.head?_eq_some_head nonempty, all]
  · intro keeps
    apply le_antisymm _ (lowest_le_lowest_spreadOnce positive.le partly nonempty)
    exact lowest_le (List.mem_of_head? (head?_spreadOnce_of_keepsLowest keeps nonempty))

theorem keepsLowest_spreadOnce (h : KeepsLowest damping values) (positive : 0 < damping)
    (partly : damping ≤ 1) (two : 2 ≤ values.length) :
    KeepsLowest damping (spreadOnce damping values) := by
  right
  rw [(lowest_spreadOnce_eq_iff positive partly two).mpr h]
  exact head?_spreadOnce_of_keepsLowest h (List.ne_nil_of_length_pos (by omega))

@[simp] theorem length_iterate_spreadOnce (damping : ℚ) (values : List ℚ) (count : Nat) :
    ((spreadOnce damping)^[count] values).length = values.length := by
  induction count generalizing values with
  | zero => rfl
  | succ count ih => rw [Function.iterate_succ_apply, ih, length_spreadOnce]

theorem iterate_spreadOnce_ne_nil (damping : ℚ) (nonempty : values ≠ []) (count : Nat) :
    (spreadOnce damping)^[count] values ≠ [] := by
  rwa [← List.length_pos_iff, length_iterate_spreadOnce, List.length_pos_iff]

/-- The lower end never moves outwards. -/
theorem lowest_le_lowest_iterate (nonneg : 0 ≤ damping) (partly : damping ≤ 1)
    (nonempty : values ≠ []) (count : Nat) :
    lowest values ≤ lowest ((spreadOnce damping)^[count] values) := by
  induction count generalizing values with
  | zero => exact le_rfl
  | succ count ih =>
      exact (lowest_le_lowest_spreadOnce nonneg partly nonempty).trans
        (ih (spreadOnce_ne_nil nonempty))

theorem lowest_iterate_of_keepsLowest (h : KeepsLowest damping values) (positive : 0 < damping)
    (partly : damping ≤ 1) (two : 2 ≤ values.length) (count : Nat) :
    lowest ((spreadOnce damping)^[count] values) = lowest values := by
  induction count generalizing values with
  | zero => rfl
  | succ count ih =>
      have again := keepsLowest_spreadOnce h positive partly two
      have stillTwo : 2 ≤ (Operator.spreadOnce damping values).length := by
        rwa [length_spreadOnce]
      rw [Function.iterate_succ_apply, ih again stillTwo]
      exact (lowest_spreadOnce_eq_iff positive partly two).mpr h

/-- Some partial moves keep the lower end exactly if the first one does. -/
theorem lowest_iterate_eq_iff (positive : 0 < damping) (partly : damping ≤ 1)
    (two : 2 ≤ values.length) (count : Nat) :
    lowest ((spreadOnce damping)^[count] values) = lowest values ↔
      count = 0 ∨ KeepsLowest damping values := by
  constructor
  · intro kept
    refine or_iff_not_imp_left.mpr fun moves => ?_
    obtain ⟨count, rfl⟩ := Nat.exists_eq_succ_of_ne_zero moves
    have nonempty : values ≠ [] := List.ne_nil_of_length_pos (by omega)
    rw [Function.iterate_succ_apply] at kept
    apply (lowest_spreadOnce_eq_iff positive partly two).mp
    apply le_antisymm _ (lowest_le_lowest_spreadOnce positive.le partly nonempty)
    exact kept ▸ lowest_le_lowest_iterate positive.le partly (spreadOnce_ne_nil nonempty) count
  · rintro (rfl | keeps)
    · rfl
    · exact lowest_iterate_of_keepsLowest keeps positive partly two count

/-! ## The upper end, by reflection -/

/-- The values negated, the last one first. -/
def reflected (values : List ℚ) : List ℚ := (values.map Neg.neg).reverse

@[simp] theorem length_reflected (values : List ℚ) :
    (reflected values).length = values.length := by
  rw [reflected, List.length_reverse, List.length_map]

theorem mem_reflected {a : ℚ} : a ∈ reflected values ↔ -a ∈ values := by
  rw [reflected, List.mem_reverse, List.mem_map]
  constructor
  · rintro ⟨b, member, rfl⟩
    rwa [neg_neg]
  · intro member
    exact ⟨-a, member, neg_neg a⟩

theorem getElem_reflected {k : Nat} (h : k < (reflected values).length)
    (inside : values.length - 1 - k < values.length) :
    (reflected values)[k] = -values[values.length - 1 - k] := by
  simp [reflected]

@[simp] theorem reflected_reflected (values : List ℚ) : reflected (reflected values) = values := by
  simp [reflected]

theorem reflected_ne_nil (nonempty : values ≠ []) : reflected values ≠ [] := by
  rwa [← List.length_pos_iff, length_reflected, List.length_pos_iff]

theorem lowest_reflected (nonempty : values ≠ []) :
    lowest (reflected values) = -highest values := by
  apply le_antisymm
  · apply lowest_le
    rw [mem_reflected, neg_neg]
    exact highest_mem nonempty
  · exact neg_le.mp (le_highest (mem_reflected.mp (lowest_mem (reflected_ne_nil nonempty))))

theorem highest_reflected (nonempty : values ≠ []) :
    highest (reflected values) = -lowest values := by
  rw [← neg_eq_iff_eq_neg, ← lowest_reflected (reflected_ne_nil nonempty), reflected_reflected]

theorem spreadStep_reflected (nonempty : values ≠ []) :
    spreadStep (reflected values) = spreadStep values := by
  rw [spreadStep, spreadStep, lowest_reflected nonempty, highest_reflected nonempty,
    length_reflected, neg_sub_neg]

/-- Reflected values make the reflected moves. -/
theorem spreadOnce_reflected (two : 2 ≤ values.length) :
    spreadOnce damping (reflected values) = reflected (spreadOnce damping values) := by
  have nonempty : values ≠ [] := List.ne_nil_of_length_pos (by omega)
  apply List.ext_getElem
  · simp
  · intro k inside inside'
    have listed : k < values.length := by simpa using inside
    obtain ⟨others, count⟩ : ∃ others, values.length - 1 = k + others :=
      Nat.exists_eq_add_of_le (by omega)
    have fromEnd : values.length - 1 - k = others := by omega
    have ends := lowest_add_steps two
    rw [count] at ends
    rw [getElem_spreadOnce inside (by simpa), getElem_reflected (by simpa) (by omega),
      getElem_reflected inside' (by simp; omega),
      getElem_spreadOnce (by simp; omega) (by simp; omega), lowest_reflected nonempty,
      spreadStep_reflected nonempty, ← ends]
    simp only [length_spreadOnce, fromEnd]
    push_cast
    ring

theorem iterate_spreadOnce_reflected (two : 2 ≤ values.length) (count : Nat) :
    (spreadOnce damping)^[count] (reflected values) =
      reflected ((spreadOnce damping)^[count] values) := by
  induction count generalizing values with
  | zero => rfl
  | succ count ih =>
      rw [Function.iterate_succ_apply, Function.iterate_succ_apply, spreadOnce_reflected two]
      exact ih (by rwa [length_spreadOnce])

theorem head?_reflected (values : List ℚ) :
    (reflected values).head? = values.getLast?.map Neg.neg := by
  rw [reflected, List.head?_reverse, List.getLast?_map]

/-- Some partial moves keep the upper end exactly if all of the way is made or the last position is
the greatest. -/
theorem highest_iterate_eq_iff (positive : 0 < damping) (partly : damping ≤ 1)
    (two : 2 ≤ values.length) (count : Nat) :
    highest ((spreadOnce damping)^[count] values) = highest values ↔
      count = 0 ∨ damping = 1 ∨ values.getLast? = some (highest values) := by
  have nonempty : values ≠ [] := List.ne_nil_of_length_pos (by omega)
  have moved := iterate_spreadOnce_ne_nil damping nonempty count
  have last : (reflected values).head? = some (-highest values) ↔
      values.getLast? = some (highest values) := by
    rw [head?_reflected]
    exact (Option.map_injective neg_injective).eq_iff (b := some (highest values))
  have reflectedTwo : 2 ≤ (reflected values).length := by rwa [length_reflected]
  have reflection := lowest_iterate_eq_iff positive partly reflectedTwo count
  rwa [iterate_spreadOnce_reflected two, lowest_reflected nonempty, lowest_reflected moved,
    neg_inj, KeepsLowest, lowest_reflected nonempty, last] at reflection

theorem highest_iterate_le_highest (nonneg : 0 ≤ damping) (partly : damping ≤ 1)
    (two : 2 ≤ values.length) (count : Nat) :
    highest ((spreadOnce damping)^[count] values) ≤ highest values := by
  have nonempty : values ≠ [] := List.ne_nil_of_length_pos (by omega)
  have moved := iterate_spreadOnce_ne_nil damping nonempty count
  have reflection := lowest_le_lowest_iterate nonneg partly (reflected_ne_nil nonempty) count
  rwa [iterate_spreadOnce_reflected two, lowest_reflected nonempty, lowest_reflected moved,
    neg_le_neg_iff] at reflection

/-! ## Passes of the operator -/

variable {spans : List Span}

/-- The operator wants its spans at even steps, in the order in which they are listed. -/
theorem target_spread (two : 2 ≤ spans.length) (distinct : (spans.map Span.position).Nodup)
    (numbers : Nat → ℚ) {k : Nat} (inside : k < spans.length) :
    (distribute spans 0).target numbers spans[k].position =
      lowest (Span.places spans numbers) + k * spreadStep (Span.places spans numbers) := by
  have proposed : (distribute spans 0).proposed numbers =
      spreadProposals (lowest (Span.places spans numbers)) (spreadStep (Span.places spans numbers))
        0 spans := by
    simp only [Operator.proposed, if_neg (not_lt.mpr two)]
    rfl
  rw [Operator.target, proposed]
  apply written_of_mem (by rwa [map_fst_spreadProposals])
  apply List.mem_of_getElem?
  rw [getElem?_spreadProposals, List.getElem?_eq_getElem inside, Nat.zero_add]
  rfl

/-- A pass of the operator moves the positions of its spans once. -/
theorem places_moved (two : 2 ≤ spans.length) (distinct : (spans.map Span.position).Nodup)
    (damping : ℚ) (numbers : Nat → ℚ) :
    Span.places spans ((distribute spans 0).moved damping numbers) =
      spreadOnce damping (Span.places spans numbers) := by
  apply List.ext_getElem
  · simp [Span.places]
  · intro k inside inside'
    have listed : k < spans.length := by simpa [Span.places] using inside
    have own : spans[k].position ∈ (distribute spans (0 : ℚ)).slots :=
      List.mem_map_of_mem (List.getElem_mem listed)
    rw [getElem_spreadOnce inside' (by simpa [Span.places]),
      ← target_spread two distinct numbers listed]
    simp only [Span.places, List.getElem_map]
    exact moved_of_mem own damping numbers

theorem places_afterPasses (two : 2 ≤ spans.length) (distinct : (spans.map Span.position).Nodup)
    (damping : ℚ) (numbers : Nat → ℚ) (count : Nat) :
    Span.places spans (Relaxation.afterPasses damping [distribute spans (0 : ℚ)] numbers count) =
      (spreadOnce damping)^[count] (Span.places spans numbers) := by
  induction count with
  | zero => rfl
  | succ count ih =>
      rw [Relaxation.afterPasses_succ, Function.iterate_succ_apply', ← ih]
      exact places_moved two distinct damping _

theorem min?_eq_lowest (nonempty : values ≠ []) : values.min? = some (lowest values) := by
  obtain ⟨first, rest, rfl⟩ := List.exists_cons_of_ne_nil nonempty
  exact OrderedField.min?_eq_least first rest

theorem max?_eq_highest (nonempty : values ≠ []) : values.max? = some (highest values) := by
  obtain ⟨first, rest, rfl⟩ := List.exists_cons_of_ne_nil nonempty
  exact OrderedField.max?_eq_greatest first rest

end Operator

open Operator

/-- Relaxed under nothing but an even spread, positions stay inside what they covered. Their least
one is kept exactly if no pass is made, if all of the way is made or if the first span has it, and
their greatest one exactly if no pass is made, if all of the way is made or if the last span has
it. -/
theorem spread_keeps_ends_iff {spans : List Span} {settings : Settings ℚ} {buffer : Buffer ℚ}
    (two : 2 ≤ spans.length) (distinct : (spans.map Span.position).Nodup)
    (inside : (Operator.distribute spans (0 : ℚ)).Inside buffer.size)
    (positive : 0 < settings.damping) (partly : settings.damping ≤ 1) :
    ∃ final stats, relax settings [.distribute spans 0] buffer = .ok (final, stats) ∧
      (∀ place ∈ Span.places spans final.numbers,
        (∃ least ∈ Span.places spans buffer.numbers, least ≤ place) ∧
          ∃ greatest ∈ Span.places spans buffer.numbers, place ≤ greatest) ∧
      ((Span.places spans final.numbers).min? = (Span.places spans buffer.numbers).min? ↔
        stats.passes = 0 ∨ settings.damping = 1 ∨
          (Span.places spans buffer.numbers).head? = (Span.places spans buffer.numbers).min?) ∧
      ((Span.places spans final.numbers).max? = (Span.places spans buffer.numbers).max? ↔
        stats.passes = 0 ∨ settings.damping = 1 ∨
          (Span.places spans buffer.numbers).getLast? =
            (Span.places spans buffer.numbers).max?) := by
  have insideAll : ∀ operator ∈ [Operator.distribute spans (0 : ℚ)],
      operator.Inside buffer.size := by
    simpa using inside
  obtain ⟨count, final, ran, -, reached, -⟩ := Relaxation.relax_eq_ok insideAll settings
  have places : Span.places spans final.numbers =
      (spreadOnce settings.damping)^[count] (Span.places spans buffer.numbers) := by
    rw [reached]
    exact places_afterPasses two distinct settings.damping buffer.numbers count
  set before := Span.places spans buffer.numbers with start
  have twoPlaces : 2 ≤ before.length := by rwa [start, Span.places, List.length_map]
  have nonempty : before ≠ [] := List.ne_nil_of_length_pos (by omega)
  have moved := iterate_spreadOnce_ne_nil settings.damping nonempty count
  refine ⟨final, _, ran, ?_, ?_, ?_⟩
  · rw [places]
    intro place member
    have above := lowest_le_lowest_iterate positive.le partly nonempty count
    have below := highest_iterate_le_highest positive.le partly twoPlaces count
    exact ⟨⟨_, lowest_mem nonempty, above.trans (lowest_le member)⟩,
      ⟨_, highest_mem nonempty, (le_highest member).trans below⟩⟩
  · rw [places, min?_eq_lowest moved, min?_eq_lowest nonempty, Option.some.injEq]
    exact lowest_iterate_eq_iff positive partly twoPlaces count
  · rw [places, max?_eq_highest moved, max?_eq_highest nonempty, Option.some.injEq]
    exact highest_iterate_eq_iff positive partly twoPlaces count

/-- Four rectangles in a row, of which the second stands behind the third. -/
def crossedRow : List Span := [⟨0, 2⟩, ⟨4, 6⟩, ⟨8, 10⟩, ⟨12, 14⟩]

/-- The rectangles stand at 3, 40, 17 and 90. -/
def crossedRowBuffer : Buffer ℚ := #[3, 0, 5, 5, 40, 0, 5, 5, 17, 0, 5, 5, 90, 0, 5, 5]

/-- The outer rectangles are listed first and last, and stay. -/
theorem spread_keeps_ends_crossedRow :
    ∃ final stats, relax ⟨5, 0, 1 / 2⟩ [.distribute crossedRow 0] crossedRowBuffer =
        .ok (final, stats) ∧
      (Span.places crossedRow final.numbers).min? = some 3 ∧
      (Span.places crossedRow final.numbers).max? = some 90 := by
  have inside : (Operator.distribute crossedRow (0 : ℚ)).Inside crossedRowBuffer.size := by decide
  have positive : 0 < (⟨5, 0, 1 / 2⟩ : Settings ℚ).damping := by norm_num
  have partly : (⟨5, 0, 1 / 2⟩ : Settings ℚ).damping ≤ 1 := by norm_num
  obtain ⟨final, stats, ran, -, least, greatest⟩ :=
    spread_keeps_ends_iff (by decide) (by decide) inside positive partly
  refine ⟨final, stats, ran, ?_, ?_⟩
  · exact least.mpr (.inr (.inr (by decide +kernel)))
  · exact greatest.mpr (.inr (.inr (by decide +kernel)))

/-- Two rectangles, of which the first one stands behind the second. -/
def reversedPair : List Span := [⟨0, 2⟩, ⟨4, 6⟩]

/-- The rectangles stand at 10 and 0. -/
def reversedPairBuffer : Buffer ℚ := #[10, 0, 4, 4, 0, 0, 4, 4]

/-- Half of the way makes them change places, and they meet in the middle. -/
theorem reversedPair_meets :
    ∃ final stats, relax ⟨1, 0, 1 / 2⟩ [.distribute reversedPair 0] reversedPairBuffer =
        .ok (final, stats) ∧
      (Span.places reversedPair reversedPairBuffer.numbers).min? = some 0 ∧
      (Span.places reversedPair reversedPairBuffer.numbers).max? = some 10 ∧
      (Span.places reversedPair final.numbers).min? = some 5 ∧
      (Span.places reversedPair final.numbers).max? = some 5 :=
  ⟨_, _, rfl, by decide +kernel, by decide +kernel, by decide +kernel, by decide +kernel⟩

end SceneLayout
