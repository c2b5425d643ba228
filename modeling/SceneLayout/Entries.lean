/-!
# Ordered entries

A finite map as the list of its entries, in the order in which the keys were
first written. Writing a known key changes its value and keeps its place; a new
key goes to the end. Looking up reads the first entry of a key, which is the
only one in every list built by `insert`.
-/

namespace SceneLayout

universe u v

/-- Values under text keys, in the order of first writing. -/
abbrev Entries (β : Type u) := List (String × β)

namespace Entries

variable {κ : Type v} {β : Type u} [BEq κ]

/-- Writes the value of a key in its place, or at the end if the key is new. -/
def insert (key : κ) (value : β) : List (κ × β) → List (κ × β)
  | [] => [(key, value)]
  | (k, v) :: rest =>
      if k == key then (key, value) :: rest else (k, v) :: insert key value rest

/-- Leaves out a key. -/
def erase (key : κ) (entries : List (κ × β)) : List (κ × β) :=
  entries.filter fun entry => !(entry.1 == key)

/-- Writes a list of entries in order, so the last value of a key counts. -/
def ofList (entries : List (κ × β)) : List (κ × β) :=
  entries.foldl (fun written entry => insert entry.1 entry.2 written) []

/-- The value of a key. -/
def find? (entries : List (κ × β)) (key : κ) : Option β :=
  entries.findSome? fun entry => if entry.1 == key then some entry.2 else none

/-- Whether a key is present. -/
def contains (entries : List (κ × β)) (key : κ) : Bool :=
  entries.any fun entry => entry.1 == key

/-- The keys in their order. -/
def keys (entries : List (κ × β)) : List κ :=
  entries.map Prod.fst

@[simp] theorem find?_nil (key : κ) : find? ([] : List (κ × β)) key = none := rfl

theorem find?_cons (k : κ) (v : β) (rest : List (κ × β)) (key : κ) :
    find? ((k, v) :: rest) key = if k == key then some v else find? rest key := by
  by_cases h : (k == key) = true <;> simp [find?, h]

/-- A written key is read back. -/
@[simp] theorem find?_insert_self [LawfulBEq κ] (key : κ) (value : β) (entries : List (κ × β)) :
    find? (insert key value entries) key = some value := by
  induction entries with
  | nil => simp [insert, find?_cons]
  | cons entry rest ih =>
      obtain ⟨k, v⟩ := entry
      by_cases h : k = key
      · simp [insert, h, find?_cons]
      · simp [insert, h, find?_cons, ih]

/-- Writing one key leaves the others alone. -/
theorem find?_insert_of_ne [LawfulBEq κ] {key other : κ} (h : other ≠ key) (value : β)
    (entries : List (κ × β)) :
    find? (insert key value entries) other = find? entries other := by
  induction entries with
  | nil => simp [insert, find?_cons, h.symm]
  | cons entry rest ih =>
      obtain ⟨k, v⟩ := entry
      by_cases hk : k = key
      · subst hk
        simp [insert, find?_cons, h.symm]
      · simp [insert, hk, find?_cons, ih]

/-- Writing adds the key at the end exactly if it was absent. -/
theorem keys_insert [LawfulBEq κ] (key : κ) (value : β) (entries : List (κ × β)) :
    keys (insert key value entries) =
      if key ∈ keys entries then keys entries else keys entries ++ [key] := by
  induction entries with
  | nil => simp [insert, keys]
  | cons entry rest ih =>
      obtain ⟨k, v⟩ := entry
      by_cases hk : k = key
      · subst hk
        simp [insert, keys]
      · have hk' : key ≠ k := fun h => hk h.symm
        simp only [keys] at ih
        by_cases hm : key ∈ rest.map Prod.fst
        · simp [insert, hk, keys, ih, hk', hm]
        · simp [insert, hk, keys, ih, hk', hm]

/-- A key that is left out has no value. -/
@[simp] theorem find?_erase_self [LawfulBEq κ] (key : κ) (entries : List (κ × β)) :
    find? (erase key entries) key = none := by
  induction entries with
  | nil => rfl
  | cons entry rest ih =>
      obtain ⟨k, v⟩ := entry
      simp only [erase] at ih
      by_cases h : k = key
      · simp [erase, h, ih]
      · simp [erase, h, find?_cons, ih]

/-- Leaving out one key leaves the others alone. -/
theorem find?_erase_of_ne [LawfulBEq κ] {key other : κ} (h : other ≠ key)
    (entries : List (κ × β)) : find? (erase key entries) other = find? entries other := by
  induction entries with
  | nil => rfl
  | cons entry rest ih =>
      obtain ⟨k, v⟩ := entry
      simp only [erase] at ih
      by_cases hk : k = key
      · subst hk
        simp [erase, find?_cons, h.symm, ih]
      · simp [erase, hk, find?_cons, ih]

/-- A value that is read stands among the entries. -/
theorem mem_of_find? [LawfulBEq κ] {entries : List (κ × β)} {key : κ} {value : β}
    (h : find? entries key = some value) : (key, value) ∈ entries := by
  obtain ⟨⟨k, v⟩, member, found⟩ := List.exists_of_findSome?_eq_some h
  split at found
  · next same =>
      cases found
      exact beq_iff_eq.mp same ▸ member
  · cases found

theorem mem_keys_of_find? [LawfulBEq κ] {entries : List (κ × β)} {key : κ} {value : β}
    (h : find? entries key = some value) : key ∈ keys entries :=
  List.mem_map_of_mem (mem_of_find? h)

/-- Writing adds no entry but the written one. -/
theorem eq_or_mem_of_mem_insert {key : κ} {value : β} {entries : List (κ × β)} {entry : κ × β}
    (h : entry ∈ insert key value entries) : entry = (key, value) ∨ entry ∈ entries := by
  induction entries with
  | nil => exact .inl (List.mem_singleton.mp h)
  | cons first rest ih =>
      obtain ⟨k, v⟩ := first
      rw [insert] at h
      split at h
      · exact (List.mem_cons.mp h).imp_right (List.mem_cons_of_mem _)
      · rcases List.mem_cons.mp h with same | later
        · exact .inr (same ▸ List.mem_cons_self)
        · exact (ih later).imp_right (List.mem_cons_of_mem _)

/-- A key is present exactly if it has a value. -/
theorem contains_eq_isSome_find? (entries : List (κ × β)) (key : κ) :
    contains entries key = (find? entries key).isSome := by
  induction entries with
  | nil => rfl
  | cons entry rest ih =>
      obtain ⟨k, v⟩ := entry
      simp only [contains] at ih
      by_cases h : (k == key) = true
      · simp [contains, find?_cons, h]
      · simp [contains, find?_cons, h, ih]

end Entries

end SceneLayout
