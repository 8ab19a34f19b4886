import Mathlib.Data.List.Nodup
import Reply.Registry

namespace Reply.Registry

/-!
# What registries hold

The values of a registry, counted with repetition.  Putting exchanges the old
value of a key for the new one, and erasing gives the value of the key out and
keeps all others, in another order.
-/

variable {κ α : Type}

/-- The values of all entries, in order. -/
def contents (registry : Registry κ α) : List α :=
  registry.entries.map Prod.snd

variable [DecidableEq κ]

/-- Where keys are distinct, the order of entries does not count. -/
theorem find?_perm
    {entries others : List (κ × α)}
    (distinct : (entries.map Prod.fst).Nodup)
    (perm : entries.Perm others)
    (key : κ) :
    find? key entries = find? key others := by
  have othersDistinct := (perm.map Prod.fst).nodup_iff.mp distinct
  apply Option.ext
  intro value
  rw [find?_eq_some_iff distinct, find?_eq_some_iff othersDistinct]
  exact perm.mem_iff

/-- Entries of other keys in front do not count when a key is looked up. -/
theorem find?_append_of_not_mem
    {key : κ}
    {entries : List (κ × α)}
    (absent : key ∉ entries.map Prod.fst)
    (more : List (κ × α)) :
    find? key (entries ++ more) = find? key more := by
  induction entries with
  | nil => rfl
  | cons entry rest inductionHypothesis =>
      obtain ⟨other, later⟩ := not_or.mp (mt List.mem_cons.mpr absent)
      exact (if_neg (Ne.symm other)).trans (inductionHypothesis later)

/-- Entries of other keys in front stay where a key is placed. -/
theorem place_append_of_not_mem
    {key : κ}
    {entries : List (κ × α)}
    (absent : key ∉ entries.map Prod.fst)
    (value : α)
    (more : List (κ × α)) :
    place key value (entries ++ more) = entries ++ place key value more := by
  induction entries with
  | nil => rfl
  | cons entry rest inductionHypothesis =>
      obtain ⟨other, later⟩ := not_or.mp (mt List.mem_cons.mpr absent)
      rw [List.cons_append, place, if_neg (Ne.symm other),
        inductionHypothesis later]
      rfl

/-- Of two values put under one key the later stays. -/
theorem put_put
    (registry : Registry κ α)
    (key : κ)
    (former value : α) :
    (registry.put key former).put key value = registry.put key value := by
  rcases registry with ⟨entries, distinct⟩
  simp only [put, mk.injEq]
  clear distinct
  induction entries with
  | nil => simp [place]
  | cons entry rest inductionHypothesis =>
      rcases entry with ⟨present, held⟩
      by_cases same : present = key
      · simp [place, same]
      · simp [place, same, inductionHypothesis]

/-- What is put in under a key that is then erased leaves no trace. -/
theorem erase_put
    (registry : Registry κ α)
    (key : κ)
    (value : α) :
    (registry.put key value).erase key = registry.erase key := by
  rcases registry with ⟨entries, distinct⟩
  simp only [put, erase, mk.injEq]
  clear distinct
  induction entries with
  | nil => simp [place, withdraw]
  | cons entry rest inductionHypothesis =>
      rcases entry with ⟨present, held⟩
      by_cases same : present = key
      · simp [place, withdraw, same]
      · simp [place, withdraw, same, inductionHypothesis]

/-- A key that is gone cannot go again. -/
theorem erase_erase
    (registry : Registry κ α)
    (key : κ) :
    (registry.erase key).erase key = registry.erase key :=
  erase_of_get?_eq_none (by rw [get?_erase, if_pos rfl])

/-- What moves from one key to another leaves the values of all other keys. -/
theorem get?_put_erase
    (registry : Registry κ α)
    {origin target other : κ}
    (notOrigin : other ≠ origin)
    (notTarget : other ≠ target)
    (value : α) :
    ((registry.erase origin).put target value).get? other =
      registry.get? other := by
  rw [get?_put, if_neg notTarget, get?_erase, if_neg notOrigin]

/-- Every entry after putting is the new one or was there before. -/
theorem mem_entries_put
    {registry : Registry κ α}
    {key : κ}
    {value : α}
    {entry : κ × α}
    (member : entry ∈ (registry.put key value).entries) :
    entry = (key, value) ∨ entry ∈ registry.entries := by
  rcases registry with ⟨entries, distinct⟩
  simp only [put] at member ⊢
  clear distinct
  induction entries with
  | nil => exact Or.inl (List.mem_singleton.mp member)
  | cons first rest inductionHypothesis =>
      rcases first with ⟨present, held⟩
      by_cases same : present = key
      · rw [place, if_pos same] at member
        rcases List.mem_cons.mp member with isFirst | inRest
        · exact Or.inl (same ▸ isFirst)
        · exact Or.inr (List.mem_cons_of_mem _ inRest)
      · rw [place, if_neg same] at member
        rcases List.mem_cons.mp member with isFirst | inRest
        · exact Or.inr (isFirst ▸ List.mem_cons_self)
        · exact
            (inductionHypothesis inRest).imp_right
              (List.mem_cons_of_mem _)

theorem entries_erase_subset
    (registry : Registry κ α)
    (key : κ) :
    (registry.erase key).entries ⊆ registry.entries :=
  List.Subset.trans (List.subset_append_right ..)
    (withdraw_perm key registry.entries).subset

/-- Putting exchanges the old value of the key for the new one. -/
theorem contents_put
    (registry : Registry κ α)
    (key : κ)
    (value : α) :
    ((registry.get? key).toList ++ (registry.put key value).contents).Perm
      (value :: registry.contents) := by
  rcases registry with ⟨entries, distinct⟩
  simp only [get?, put, contents]
  clear distinct
  induction entries with
  | nil => exact List.Perm.refl _
  | cons entry rest inductionHypothesis =>
      rcases entry with ⟨present, held⟩
      by_cases same : present = key
      · rw [find?, place, if_pos same, if_pos same]
        exact List.Perm.swap ..
      · rw [find?, place, if_neg same, if_neg same]
        exact
          List.perm_middle.trans
            ((inductionHypothesis.cons held).trans (List.Perm.swap ..))

/-- Erasing gives out the value of the key and keeps all others. -/
theorem contents_erase
    (registry : Registry κ α)
    (key : κ) :
    ((registry.get? key).toList ++ (registry.erase key).contents).Perm
      registry.contents := by
  have parts := (withdraw_perm key registry.entries).map Prod.snd
  rw [List.map_append] at parts
  simp only [get?, erase, contents]
  cases found : find? key registry.entries with
  | none => simpa [found] using parts
  | some value => simpa [found] using parts

theorem mem_contents_put
    {registry : Registry κ α}
    {key : κ}
    {value other : α}
    (member : other ∈ (registry.put key value).contents) :
    other = value ∨ other ∈ registry.contents :=
  List.mem_cons.mp
    ((registry.contents_put key value).subset
      (List.mem_append_right _ member))

theorem contents_erase_subset
    (registry : Registry κ α)
    (key : κ) :
    (registry.erase key).contents ⊆ registry.contents :=
  List.map_subset Prod.snd (registry.entries_erase_subset key)

/-! ## Counting what the values carry -/

variable {τ : Type} [DecidableEq τ]

/-- Putting exchanges what the old value carries for what the new one does. -/
theorem count_flatMap_put
    (carried : α → List τ)
    (registry : Registry κ α)
    (key : κ)
    (value : α)
    (token : τ) :
    ((registry.get? key).toList.flatMap carried).count token +
        ((registry.put key value).contents.flatMap carried).count token =
      (carried value).count token +
        (registry.contents.flatMap carried).count token := by
  have exchanged :=
    ((registry.contents_put key value).flatMap_right carried).count_eq token
  rw [List.flatMap_append, List.count_append, List.flatMap_cons,
    List.count_append] at exchanged
  exact exchanged

/-- What there may be to put in is exchanged for what it takes the place of. -/
theorem count_flatMap_accept
    (carried : α → List τ)
    (registry : Registry κ α)
    (key : κ)
    (value? : Option α)
    (token : τ) :
    (if value?.isSome then
          (registry.get? key).toList.flatMap carried
        else
          []).count token +
        ((registry.accept key value?).contents.flatMap carried).count token =
      (value?.toList.flatMap carried).count token +
        (registry.contents.flatMap carried).count token := by
  cases value? with
  | none => rfl
  | some value =>
      rw [Option.toList_some, List.flatMap_singleton]
      exact registry.count_flatMap_put carried key value token

/-- Erasing gives out what the value of the key carries. -/
theorem count_flatMap_erase
    (carried : α → List τ)
    (registry : Registry κ α)
    (key : κ)
    (token : τ) :
    ((registry.get? key).toList.flatMap carried).count token +
        ((registry.erase key).contents.flatMap carried).count token =
      (registry.contents.flatMap carried).count token := by
  have taken :=
    ((registry.contents_erase key).flatMap_right carried).count_eq token
  rw [List.flatMap_append, List.count_append] at taken
  exact taken

/-- What there may be takes the place of what else there may be. -/
theorem count_flatMap_or
    (carried : α → List τ)
    (value? former? : Option α)
    (token : τ) :
    ((value?.or former?).toList.flatMap carried).count token +
        (if value?.isSome then
          former?.toList.flatMap carried
        else
          []).count token =
      (value?.toList.flatMap carried).count token +
        (former?.toList.flatMap carried).count token := by
  cases value? with
  | none => exact Nat.add_comm ..
  | some value => rfl

omit [DecidableEq τ]

theorem mem_contents_of_get?
    {registry : Registry κ α}
    {key : κ}
    {value : α}
    (found : registry.get? key = some value) :
    value ∈ registry.contents :=
  List.mem_map_of_mem (get?_eq_some_iff.mp found)

/-! ## Images of the values -/

variable {β : Type}

/-- The image of every value, under its key. -/
def map (image : α → β) (registry : Registry κ α) : Registry κ β :=
  ⟨registry.entries.map fun entry => (entry.1, image entry.2), by
    simpa [Function.comp_def] using registry.distinct⟩

theorem get?_map
    (image : α → β)
    (registry : Registry κ α)
    (key : κ) :
    (registry.map image).get? key = (registry.get? key).map image := by
  rcases registry with ⟨entries, distinct⟩
  simp only [map, get?]
  clear distinct
  induction entries with
  | nil => rfl
  | cons entry rest inductionHypothesis =>
      rcases entry with ⟨present, held⟩
      by_cases same : present = key
      · simp [find?, same]
      · simp [find?, same, inductionHypothesis]

theorem map_put
    (image : α → β)
    (registry : Registry κ α)
    (key : κ)
    (value : α) :
    (registry.put key value).map image =
      (registry.map image).put key (image value) := by
  rcases registry with ⟨entries, distinct⟩
  simp only [map, put, mk.injEq]
  clear distinct
  induction entries with
  | nil => rfl
  | cons entry rest inductionHypothesis =>
      rcases entry with ⟨present, held⟩
      by_cases same : present = key
      · simp [place, same]
      · simp [place, same, inductionHypothesis]

theorem map_erase
    (image : α → β)
    (registry : Registry κ α)
    (key : κ) :
    (registry.erase key).map image = (registry.map image).erase key := by
  rcases registry with ⟨entries, distinct⟩
  simp only [map, erase, mk.injEq]
  clear distinct
  induction entries with
  | nil => rfl
  | cons entry rest inductionHypothesis =>
      rcases entry with ⟨present, held⟩
      by_cases same : present = key
      · cases last : rest.getLast? <;> simp [withdraw, same, last]
      · simp [withdraw, same, inductionHypothesis]

end Reply.Registry
