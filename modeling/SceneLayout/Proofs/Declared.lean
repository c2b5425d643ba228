import Mathlib.Data.List.Chain
import SceneLayout.Proofs.Boxes
import SceneLayout.Proofs.Compilation

/-!
# What a tree declares

A stack declares that its children stand one after the other and that it is as large as
they need, an alignment that its children meet at a line, a distribution that there is
the same gap or the same step between them, a background that it surrounds its child.
Numbers that an operator proposes none other for satisfy what its shape declares, so a
layout that came to rest satisfies what the tree declares.

Main statement: `solve_satisfies_tree`.

## Implementation notes

Declarations are about boxes, in the order of the children. Boxes of one entity may
stand in several lists, since references let containers share their children.
-/

namespace SceneLayout

open Scalar

/-- The part of a box that lies before the place where boxes are aligned. -/
def Alignment.share : Alignment → ℚ
  | .start => 0
  | .center => 1 / 2
  | .finish => 1

namespace Box

/-- The place along an axis at which the box is aligned. -/
def mark (box : Box ℚ) (axis : Axis) (alignment : Alignment) : ℚ :=
  box.position axis + alignment.share * box.extent axis

/-- The box with padding on every side. -/
def padded (box : Box ℚ) (padding : ℚ) : Box ℚ :=
  ⟨box.x - padding, box.y - padding, box.width + 2 * padding, box.height + 2 * padding⟩

/-- The children stand one after the other along the axis, and the container is as large as they
need. Across the axis each child is aligned in the container. -/
structure Stacked (axis : Axis) (spacing : ℚ) (alignment : Alignment) (container : Box ℚ)
    (children : List (Box ℚ)) : Prop where
  first : ∀ child ∈ children.head?, child.position axis = 0
  next : children.IsChain fun a b => b.position axis = a.finish axis + spacing
  extent : container.extent axis = (children.getLast?.map fun last => last.finish axis).getD 0
  across : container.extent axis.cross =
    (children.map fun child => child.extent axis.cross).foldl max 0
  aligned : ∀ child ∈ children, child.position axis.cross =
    alignment.share * (container.extent axis.cross - child.extent axis.cross)

/-- All boxes are aligned at one line. -/
def Aligned (axis : Axis) (alignment : Alignment) (children : List (Box ℚ)) : Prop :=
  ∃ line, ∀ child ∈ children, child.mark axis alignment = line

/-- With a spacing there is that gap between boxes and the next ones; without one, the boxes stand
at even steps. -/
def Distributed (axis : Axis) (spacing : ℚ) (children : List (Box ℚ)) : Prop :=
  if 0 < spacing then children.IsChain fun a b => b.position axis - a.finish axis = spacing
  else ∃ step, 0 ≤ step ∧ children.IsChain fun a b => b.position axis = a.position axis + step

end Box

/-- The box and those of the children are as the shape declares. -/
def Shape.Holds (box : Box ℚ) (children : List (Box ℚ)) : Shape ℚ → Prop
  | stack axis spacing alignment => Box.Stacked axis spacing alignment box children
  | align axis alignment => Box.Aligned axis alignment children
  | distribute axis spacing => Box.Distributed axis spacing children
  | background padding _ => ∀ child ∈ children.head?, box = child.padded padding
  | _ => True

/-! ## Numbers at which an operator rests -/

namespace Operator

/-- The operator proposes the numbers that its slots hold. -/
def RestsAt (numbers : Nat → ℚ) (operator : Operator ℚ) : Prop :=
  ∀ entry ∈ operator.proposed numbers, numbers entry.1 = entry.2

theorem restsAt_of_target_eq {operator : Operator ℚ} (placed : operator.OnEntities)
    (distinct : operator.DistinctEntries) {numbers : Nat → ℚ}
    (h : operator.target numbers = numbers) : operator.RestsAt numbers := by
  intro entry proposal
  have taken := target_of_mem_proposed placed distinct proposal
  rwa [h] at taken

variable {numbers : Nat → ℚ}

theorem acrossPlace_eq (alignment : Alignment) (room thickness : ℚ) :
    acrossPlace alignment room thickness = alignment.share * (room - thickness) := by
  cases alignment with
  | start => simp [acrossPlace, Alignment.share]
  | center =>
      rw [acrossPlace, Alignment.share, nat_eq_cast]
      push_cast
      ring
  | finish => simp [acrossPlace, Alignment.share]

theorem stackWidest_eq (axis : Axis) (children : List Nat) :
    stackWidest numbers axis (nat 0) children =
      (children.map fun base => numbers (base + axis.cross.extent)).foldl max 0 := by
  have largest := max?_eq_greatest 0 (children.map fun base => numbers (base + axis.cross.extent))
  rw [List.max?_cons', Option.some.injEq] at largest
  rw [stackWidest, largest, nat_eq_cast, Nat.cast_zero]

/-- The children of a stack at rest stand one after the other from a place on. -/
theorem rests_stacked {axis : Axis} {spacing room place : ℚ} {alignment : Alignment}
    {bases : List Nat}
    (rests : ∀ entry ∈ stacked numbers axis spacing alignment room place bases,
      numbers entry.1 = entry.2) :
    (∀ base ∈ bases.head?, numbers (base + axis.position) = place) ∧
      (bases.IsChain fun a b => numbers (b + axis.position) =
        numbers (a + axis.position) + numbers (a + axis.extent) + spacing) ∧
      (∀ last ∈ bases.getLast?, stackEnd numbers axis spacing place bases =
        numbers (last + axis.position) + numbers (last + axis.extent) + spacing) ∧
      ∀ base ∈ bases, numbers (base + axis.cross.position) =
        alignment.share * (room - numbers (base + axis.cross.extent)) := by
  induction bases generalizing place with
  | nil => simp
  | cons base rest ih =>
      rw [stacked, List.forall_mem_cons, List.forall_mem_cons] at rests
      obtain ⟨here, across, others⟩ := rests
      obtain ⟨head, chain, final, aligned⟩ := ih others
      simp only at here across
      refine ⟨?_, ?_, ?_, ?_⟩
      · intro first same
        cases same
        exact here
      · cases rest with
        | nil => simp
        | cons second rest =>
            rw [List.isChain_cons_cons]
            refine ⟨?_, chain⟩
            rw [head second rfl, here, add_assoc]
      · intro last same
        cases rest with
        | nil =>
            obtain rfl : base = last := by simpa using same
            rw [stackEnd, List.foldl_cons, List.foldl_nil, here, add_assoc]
        | cons second rest =>
            rw [List.getLast?_cons_cons] at same
            exact final last same
      · intro child member
        rcases List.mem_cons.mp member with rfl | later
        · rw [across, acrossPlace_eq]
        · exact aligned child later

/-- Spans at rest that are put before one another keep the gap; the last one comes first here. -/
theorem rests_spaced {spacing place : ℚ} {last : Span} {others : List Span}
    (start : numbers last.position = place)
    (rests : ∀ entry ∈ spaced numbers spacing place others, numbers entry.1 = entry.2) :
    (last :: others).IsChain fun b a =>
      numbers b.position - (numbers a.position + numbers a.extent) = spacing := by
  induction others generalizing last place with
  | nil => simp
  | cons span rest ih =>
      rw [spaced, List.forall_mem_cons] at rests
      obtain ⟨here, others⟩ := rests
      simp only at here
      rw [List.isChain_cons_cons]
      refine ⟨?_, ih here others⟩
      rw [here, start]
      ring

/-- Spans at rest that are spread stand at even steps. -/
theorem rests_spread {first step : ℚ} {spans : List Span}
    (rests : ∀ entry ∈ spreadProposals first step 0 spans, numbers entry.1 = entry.2) :
    spans.IsChain fun a b => numbers b.position = numbers a.position + step := by
  have place : ∀ k (h : k < spans.length), numbers spans[k].position = first + (k : ℚ) * step := by
    intro k inside
    have proposal : (spreadProposals first step 0 spans)[k]? =
        some (spans[k].position, first + (k : ℚ) * step) := by
      rw [getElem?_spreadProposals, List.getElem?_eq_getElem inside, Nat.zero_add]
      rfl
    exact rests _ (List.mem_of_getElem? proposal)
  rw [List.isChain_iff_getElem]
  intro k inside
  rw [place (k + 1) inside, place k (by omega)]
  push_cast
  ring

end Operator

/-! ## Shapes at rest -/

variable {numbers : Nat → ℚ} {rank : Nat} {children : List Nat}

/-- The box of the entity of a rank. -/
def boxOf (numbers : Nat → ℚ) (rank : Nat) : Box ℚ := boxAt numbers (baseOf rank)

theorem stacked_of_restsAt {axis : Axis} {spacing : ℚ} {alignment : Alignment}
    (rests : (Operator.stack axis (children.map baseOf) (baseOf rank) spacing
      alignment).RestsAt numbers) :
    Box.Stacked axis spacing alignment (boxOf numbers rank) (children.map (boxOf numbers)) := by
  rw [Operator.RestsAt, Operator.proposed, List.forall_mem_append] at rests
  obtain ⟨ofChildren, ofContainer⟩ := rests
  obtain ⟨head, chain, final, aligned⟩ := Operator.rests_stacked ofChildren
  have extent := ofContainer _ List.mem_cons_self
  have across := ofContainer _ (List.mem_cons_of_mem _ List.mem_cons_self)
  simp only at extent across
  constructor
  · intro child same
    rw [List.head?_map] at same
    obtain ⟨first, isFirst, rfl⟩ := Option.map_eq_some_iff.mp same
    have here := head (baseOf first) (by rw [List.head?_map, isFirst]; rfl)
    rw [boxOf, position_boxAt, here, nat_eq_cast, Nat.cast_zero]
  · rw [List.isChain_map] at chain ⊢
    simpa only [Box.finish, boxOf, position_boxAt, extent_boxAt] using chain
  · rw [boxOf, extent_boxAt, extent, List.getLast?_map]
    cases found : children.getLast? with
    | none =>
        rw [List.getLast?_eq_none_iff.mp found]
        simp
    | some last =>
        have finish := final (baseOf last) (by rw [List.getLast?_map, found]; rfl)
        have some : (children.map baseOf).isEmpty = false := by
          rw [List.isEmpty_map, List.isEmpty_eq_false_iff]
          rintro rfl
          cases found
        rw [some, if_neg Bool.false_ne_true, finish, add_sub_cancel_right]
        simp [Box.finish, boxOf]
  · rw [boxOf, extent_boxAt, across, Operator.stackWidest_eq, List.map_map, List.map_map]
    congr 1
    apply List.map_congr_left
    intro child _
    simp [boxOf]
  · intro child member
    obtain ⟨childRank, listed, rfl⟩ := List.mem_map.mp member
    simp only [boxOf, position_boxAt, extent_boxAt]
    exact aligned _ (List.mem_map_of_mem listed)

theorem aligned_of_marks {axis : Axis} {alignment : Alignment} {line : ℚ}
    (marks : ∀ child ∈ children, numbers (baseOf child + axis.position) =
      line - alignment.share * numbers (baseOf child + axis.extent)) :
    Box.Aligned axis alignment (children.map (boxOf numbers)) := by
  refine ⟨line, ?_⟩
  intro box member
  obtain ⟨child, listed, rfl⟩ := List.mem_map.mp member
  rw [Box.mark, boxOf, position_boxAt, extent_boxAt, marks child listed, sub_add_cancel]

theorem half_eq (a : ℚ) : a / nat 2 = Alignment.share .center * a := by
  rw [Alignment.share, nat_eq_cast]
  push_cast
  ring

theorem aligned_of_restsAt {axis : Axis} {alignment : Alignment}
    (rests : (alignOperator axis alignment children).RestsAt numbers) :
    Box.Aligned axis alignment (children.map (boxOf numbers)) := by
  cases alignment with
  | start =>
      apply aligned_of_marks
      intro child member
      have here := rests _ (List.mem_map_of_mem (List.mem_map_of_mem member))
      rw [Alignment.share, zero_mul, sub_zero]
      exact here
  | finish =>
      apply aligned_of_marks
      intro child member
      have here := rests _ (List.mem_map_of_mem (List.mem_map_of_mem member))
      rw [Alignment.share, one_mul]
      exact here
  | center =>
      rcases alignOperator_center (α := ℚ) axis children with
        mean | ⟨others, last, rfl, rfl, anchored⟩
      · rw [mean] at rests
        apply aligned_of_marks
        intro child member
        have here := rests _ (List.mem_map_of_mem (List.mem_map_of_mem member))
        rw [← half_eq]
        exact here
      · rw [anchored] at rests
        refine ⟨Operator.centerOf numbers (spanOf .x last), ?_⟩
        intro box member
        obtain ⟨child, listed, rfl⟩ := List.mem_map.mp member
        rw [Box.mark, boxOf, position_boxAt, extent_boxAt, ← half_eq]
        rcases List.mem_append.mp listed with other | anchor
        · have here := rests _ (List.mem_map_of_mem (List.mem_map_of_mem other))
          exact eq_sub_iff_add_eq.mp here
        · rw [List.mem_singleton.mp anchor]
          rfl

/-- Nothing has to be checked of a list that is too short. -/
theorem isChain_of_length_lt_two {β : Type*} {R : β → β → Prop} {items : List β}
    (few : items.length < 2) : items.IsChain R := by
  cases items with
  | nil => exact .nil
  | cons item rest =>
      cases rest with
      | nil => exact .singleton item
      | cons second rest =>
          rw [List.length_cons, List.length_cons] at few
          omega

theorem distributed_of_restsAt {axis : Axis} {spacing : ℚ}
    (rests : (Operator.distribute (children.map (spanOf axis)) spacing).RestsAt numbers) :
    Box.Distributed axis spacing (children.map (boxOf numbers)) := by
  rw [Operator.RestsAt, Operator.proposed] at rests
  by_cases few : (children.map (spanOf axis)).length < 2
  · rw [List.length_map, ← List.length_map (boxOf numbers)] at few
    have short : ∀ R : Box ℚ → Box ℚ → Prop, (children.map (boxOf numbers)).IsChain R :=
      fun R => isChain_of_length_lt_two few
    rw [Box.Distributed]
    split
    · exact short _
    · exact ⟨0, le_rfl, short _⟩
  rw [if_neg few] at rests
  rw [Box.Distributed]
  by_cases apart : 0 < spacing
  · rw [if_pos apart]
    rw [if_pos (lt_iff.mpr (by simpa using apart))] at rests
    have gaps : (children.map (spanOf axis)).IsChain fun a b =>
        numbers b.position - (numbers a.position + numbers a.extent) = spacing := by
      rw [← List.reverse_reverse (children.map (spanOf axis)), List.isChain_reverse]
      cases backwards : (children.map (spanOf axis)).reverse with
      | nil => exact .nil
      | cons last others =>
          rw [backwards] at rests
          exact Operator.rests_spaced rfl fun entry listed =>
            rests entry (List.mem_cons_of_mem _ listed)
    rw [List.isChain_map] at gaps ⊢
    simpa only [Box.finish, boxOf, position_boxAt, extent_boxAt, spanOf] using gaps
  · rw [if_neg apart]
    rw [if_neg fun positive => apart (by simpa using lt_iff.mp positive)] at rests
    have nonneg := Operator.spreadStep_nonneg
      ((children.map (spanOf axis)).map fun span => numbers span.position)
    have steps := Operator.rests_spread rests
    refine ⟨_, nonneg, ?_⟩
    rw [List.isChain_map] at steps ⊢
    simpa only [boxOf, position_boxAt, spanOf] using steps

theorem padded_of_restsAt {child : Nat} {padding : ℚ}
    (rests : (Operator.background (baseOf child) (baseOf rank) padding).RestsAt numbers) :
    boxOf numbers rank = (boxOf numbers child).padded padding := by
  simp only [Operator.RestsAt, Operator.proposed, List.forall_mem_cons, nat_eq_cast] at rests
  obtain ⟨x, y, width, height, -⟩ := rests
  have double : padding * ((2 : Nat) : ℚ) = 2 * padding := by
    push_cast
    ring
  rw [double] at width height
  simp only [boxOf, boxAt, Box.padded, x, y, width, height]

/-- A shape whose operator rests is as it declares. -/
theorem holds_of_restsAt {shape : Shape ℚ}
    (rests : ∀ operator, shape.operator? rank children = some operator →
      operator.RestsAt numbers) :
    shape.Holds (boxOf numbers rank) (children.map (boxOf numbers)) := by
  cases shape with
  | stack axis spacing alignment => exact stacked_of_restsAt (rests _ rfl)
  | align axis alignment => exact aligned_of_restsAt (rests _ rfl)
  | distribute axis spacing => exact distributed_of_restsAt (rests _ rfl)
  | background padding style =>
      intro box first
      rw [List.head?_map] at first
      obtain ⟨child, isFirst, rfl⟩ := Option.map_eq_some_iff.mp first
      apply padded_of_restsAt
      apply rests
      rw [Shape.operator?, isFirst]
      rfl
  | _ => trivial

/-! ## Layouts at rest -/

/-- Every tree with a scene is laid out, and if the last pass has left no change to be made, then
the boxes are as each node declares that has no child twice and is not among its own children.
There is no residual before the first pass. -/
theorem solve_satisfies_tree {tree : Tree ℚ} {scene : Scene ℚ}
    (compiled : tree.compile = .ok scene) (settings : Settings ℚ) :
    ∃ named solution, tree.named .top [] = .ok named ∧ scene.solve settings = .ok solution ∧
      (solution.stats.residual = some 0 →
        ∀ node ∈ named.preorder, (node.name :: node.children).Nodup →
          ∃ box boxes, Entries.find? solution.layout node.name = some box ∧
            node.children.map (Entries.find? solution.layout) = boxes.map some ∧
            node.shape.Holds box boxes) := by
  obtain ⟨named, naming, well, rfl⟩ := Tree.exists_named_of_compile compiled
  have distinct : named.scene.ids.Nodup := by
    rw [NamedTree.ids_scene]
    exact well.distinct
  obtain ⟨count, solved, -⟩ := Scene.solve_eq_ok distinct (NamedTree.inside_scene well) settings
  refine ⟨named, _, naming, solved, ?_⟩
  intro zero node member apart
  have rest := Relaxation.target_afterPasses_of_residualAfter_eq_zero zero
  set numbers := Relaxation.afterPasses settings.damping named.scene.operators
    (Scene.initial named.scene.records).numbers count
  have found : ∀ name ∈ node.name :: node.children,
      Entries.find? (layoutOf named.scene.ids numbers) name =
        some (boxOf numbers (named.names.idxOf name)) := by
    intro name denoted
    rw [NamedTree.ids_scene]
    exact find?_layoutOf well.distinct numbers (well.mem_names member name denoted)
  refine ⟨_, (node.children.map named.names.idxOf).map (boxOf numbers),
    found node.name List.mem_cons_self, ?_, ?_⟩
  · rw [List.map_map, List.map_map]
    apply List.map_congr_left
    intro name denoted
    exact found name (List.mem_cons_of_mem _ denoted)
  · apply holds_of_restsAt
    intro operator built
    have listed := NamedTree.mem_operators_scene.mpr ⟨node, member, built⟩
    apply Operator.restsAt_of_target_eq (NamedTree.onEntities_scene operator listed)
    · exact Shape.distinctEntries_of_operator? built (NamedTree.nodup_ranks well member apart)
    · exact rest operator listed

/-- A stack of two rectangles, and a frame around it. -/
def framedStack : Tree ℚ :=
  .node none (some "scene") .group
    [.node none (some "stack") (.stack .y 2 .center)
      [.node none (some "a") (.rect 0 0 10 4 ⟨none, none, none⟩) [],
        .node none (some "b") (.rect 0 0 6 8 ⟨none, none, none⟩) []],
      .node none (some "frame") (.background 3 ⟨none, none, none⟩) [.ref "stack"]]

/-- It comes to rest, and then both hold what they declare. -/
theorem solve_satisfies_framedStack :
    ∃ scene solution, framedStack.compile = .ok scene ∧
      scene.solve ⟨10, 0, 1⟩ = .ok solution ∧ solution.stats.residual = some 0 ∧
      (∃ box, ∃ boxes : List (Box ℚ), Entries.find? solution.layout "stack" = some box ∧
        ["a", "b"].map (Entries.find? solution.layout) = boxes.map some ∧
        Box.Stacked .y 2 .center box boxes) ∧
      ∃ box, ∃ boxes : List (Box ℚ), Entries.find? solution.layout "frame" = some box ∧
        ["stack"].map (Entries.find? solution.layout) = boxes.map some ∧
        ∀ child ∈ boxes.head?, box = child.padded 3 := by
  obtain ⟨scene, compiled, residual⟩ : ∃ scene, framedStack.compile = .ok scene ∧
      (scene.solve ⟨10, 0, 1⟩).toOption.bind (fun solution => solution.stats.residual) =
        some 0 := ⟨_, rfl, by decide +kernel⟩
  obtain ⟨named, solution, naming, solved, satisfied⟩ :=
    solve_satisfies_tree compiled ⟨10, 0, 1⟩
  rw [solved] at residual
  have names : framedStack.named .top [] = .ok (.node "scene" .group
      [.node "stack" (.stack .y 2 .center)
        [.node "a" (.rect 0 0 10 4 ⟨none, none, none⟩) [],
          .node "b" (.rect 0 0 6 8 ⟨none, none, none⟩) []],
        .node "frame" (.background 3 ⟨none, none, none⟩) [.ref "stack"]]) := rfl
  rw [names] at naming
  cases naming
  have stack := satisfied residual ⟨"stack", .stack .y 2 .center, ["a", "b"]⟩
    (by simp [NamedTree.preorder, NamedTree.preorderAll, NamedTree.name]) (by decide)
  have frame := satisfied residual ⟨"frame", .background 3 ⟨none, none, none⟩, ["stack"]⟩
    (by simp [NamedTree.preorder, NamedTree.preorderAll, NamedTree.name]) (by decide)
  exact ⟨scene, solution, compiled, solved, residual, stack, frame⟩

end SceneLayout
