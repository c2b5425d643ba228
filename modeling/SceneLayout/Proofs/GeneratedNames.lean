import Mathlib.Data.Finset.Card
import SceneLayout.Number.Double
import SceneLayout.Proofs.Acceptance

/-!
# The search for a generated name

A node without a name of its own gets the first free one of a sequence: its type in lower case with
its place, and then the same with a hyphen and 1, 2 and so on. The search looks at one candidate
after the other until one is free, with no bound of its own. It ends all the same, because no two
candidates are the same text: every candidate but the last one is a taken name, so it looks at one
more than there are taken names at most.

Main statement: `generated_name_is_first_free`.

## Implementation notes

The search is a relation with the list of all candidates that are looked at. The definition that
runs has a bound, and where that one ends its search has ended, too.
-/

namespace SceneLayout

universe u

namespace NodeName

/-- The search for a free candidate, from a number on. It ends with a name after it has looked at
the listed candidates. -/
inductive Search (used : List String) (base : String) : Nat → List String → String → Prop
  | free {number : Nat} (free : candidate base number ∉ used) :
      Search used base number [candidate base number] (candidate base number)
  | taken {number : Nat} {looked : List String} {name : String}
      (taken : candidate base number ∈ used) (further : Search used base (number + 1) looked name) :
      Search used base number (candidate base number :: looked) name

variable {used looked : List String} {base name : String} {number : Nat}

/-- The bounded search ends like the one without a bound if it ends with a free name. -/
theorem exists_search_of_firstFreeFrom {left : Nat}
    (h : firstFreeFrom used base left number ∉ used) :
    ∃ looked, Search used base number looked (firstFreeFrom used base left number) := by
  induction left generalizing number with
  | zero => exact ⟨_, .free h⟩
  | succ left ih =>
      rw [firstFreeFrom] at h ⊢
      by_cases taken : candidate base number ∈ used
      · rw [if_pos (List.contains_iff_mem.mpr taken)] at h ⊢
        obtain ⟨looked, further⟩ := ih h
        exact ⟨_, .taken taken further⟩
      · rw [if_neg (mt List.contains_iff_mem.mp taken)]
        exact ⟨_, .free taken⟩

namespace Search

/-- A search looks at the candidates in their order. All but the last one are taken, and this one is
free and the result. -/
theorem exists_last (search : Search used base number looked name) :
    ∃ more, looked = (List.range' number (more + 1)).map (candidate base) ∧
      name = candidate base (number + more) ∧ name ∉ used ∧
      ∀ earlier < more, candidate base (number + earlier) ∈ used := by
  induction search with
  | free free =>
      exact ⟨0, rfl, rfl, free, fun earlier before => absurd before (Nat.not_lt_zero earlier)⟩
  | @taken number looked name taken _ ih =>
      obtain ⟨more, rfl, rfl, free, before⟩ := ih
      refine ⟨more + 1, rfl, by rw [Nat.add_right_comm, Nat.add_assoc], free, ?_⟩
      intro earlier small
      cases earlier with
      | zero => exact taken
      | succ earlier =>
          rw [← Nat.add_assoc, Nat.add_right_comm]
          exact before earlier (Nat.lt_of_succ_lt_succ small)

/-- No more candidates are taken than there are names. -/
theorem length_le (search : Search used base number looked name) :
    looked.length ≤ used.toFinset.card + 1 := by
  obtain ⟨more, rfl, -, -, before⟩ := search.exists_last
  have among : (Finset.range more).image (fun k => candidate base (number + k)) ⊆ used.toFinset := by
    intro text listed
    obtain ⟨earlier, small, rfl⟩ := Finset.mem_image.mp listed
    exact List.mem_toFinset.mpr (before earlier (Finset.mem_range.mp small))
  have injective : Function.Injective fun k => candidate base (number + k) :=
    (candidate_injective base).comp (add_right_injective number)
  have fewer := Finset.card_le_card among
  rw [Finset.card_image_of_injective _ injective, Finset.card_range] at fewer
  rw [List.length_map, List.length_range']
  exact Nat.succ_le_succ fewer

end Search

/-- A node without a name that is not empty is given the first free candidate. -/
theorem choose_of_unnamed {key id : Option String} (noKey : key = none ∨ key = some "")
    (noId : id = none ∨ id = some "") (used : List String) (type : Option String)
    (path : TreePath) :
    choose used key id type path = .ok (firstFree used (NodeName.base type path)) := by
  have none : explicit? key id = none := by
    rw [explicit?, Visit.nonEmpty_eq_none_iff.mpr noKey, Visit.nonEmpty_eq_none_iff.mpr noId]
    rfl
  rw [choose, none]

end NodeName

variable {α : Type u} [Scalar α]

/-- The name of a node is added to the known ones, and then its children are walked. -/
theorem Tree.place_of_choose {draft : Draft α} {key id : Option String} {shape : Shape α}
    {path : TreePath} {name : String}
    (chosen : NodeName.choose draft.ids key id shape.typeName path = .ok name)
    (children : List (Tree α)) :
    place path draft (.node key id shape children) =
      (placeAll path 0 (draft.addRecord (shape.record name)) children).map fun walked =>
        (draft.records.length, walked.2.close shape draft.records.length walked.1) := by
  rw [place, chosen]
  dsimp only
  cases placeAll path 0 (draft.addRecord (shape.record name)) children <;> rfl

/-- A node without a name that is not empty gets the first candidate that is free, and the search
looks at one more candidate than there are taken names at most. The children of the node are walked
with this one name added to the taken ones. -/
theorem generated_name_is_first_free (used : List String) (key id type : Option String)
    (path : TreePath) (noKey : key = none ∨ key = some "") (noId : id = none ∨ id = some "") :
    let base := lowerCase (type.getD "None") ++ "-" ++ path.text
    ∃ looked name number, NodeName.choose used key id type path = .ok name ∧
      NodeName.Search used base 0 looked name ∧ looked.length ≤ used.toFinset.card + 1 ∧
      name = NodeName.candidate base number ∧ name ∉ used ∧
      (∀ earlier < number, NodeName.candidate base earlier ∈ used) ∧
      ∀ (draft : Draft α) (shape : Shape α) (children : List (Tree α)),
        draft.ids = used → shape.typeName = type →
        ∃ named : Draft α, named.ids = used ++ [name] ∧
          Tree.place path draft (.node key id shape children) =
            (Tree.placeAll path 0 named children).map fun walked =>
              (draft.records.length, walked.2.close shape draft.records.length walked.1) := by
  intro base
  have chosen := NodeName.choose_of_unnamed noKey noId used type path
  have free : NodeName.firstFree used base ∉ used := NodeName.firstFree_not_mem used base
  obtain ⟨looked, search⟩ := NodeName.exists_search_of_firstFreeFrom free
  obtain ⟨number, -, last, -, before⟩ := search.exists_last
  simp only [Nat.zero_add] at last before
  refine ⟨looked, NodeName.firstFree used base, number, chosen, search, search.length_le, last,
    free, before, ?_⟩
  rintro draft shape children rfl rfl
  exact ⟨_, Draft.ids_addRecord draft _ shape, Tree.place_of_choose chosen children⟩

/-- Two candidates are taken, and the third one is given. -/
theorem generated_name_of_secondRect :
    ∃ looked, NodeName.choose ["rect-0", "note", "rect-0-1"] none (some "") (some "RECT") .top =
        .ok "rect-0-2" ∧
      NodeName.Search ["rect-0", "note", "rect-0-1"] "rect-0" 0 looked "rect-0-2" ∧
      looked.length ≤ 4 := by
  obtain ⟨looked, name, -, chosen, search, short, -⟩ :=
    generated_name_is_first_free (α := Float) ["rect-0", "note", "rect-0-1"] none (some "")
      (some "RECT") .top (.inl rfl) (.inr rfl)
  have named : NodeName.choose ["rect-0", "note", "rect-0-1"] none (some "") (some "RECT") .top =
      .ok "rect-0-2" := by
    decide +kernel
  have base : lowerCase "RECT" ++ "-" ++ TreePath.top.text = "rect-0" := by
    decide +kernel
  obtain rfl : name = "rect-0-2" := Except.ok.inj (chosen.symm.trans named)
  rw [Option.getD_some, base] at search
  exact ⟨looked, named, search, short⟩

end SceneLayout
