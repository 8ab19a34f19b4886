namespace Reply

/-!
# Registries

A finite map that keeps its entries in a row, no key twice.  Putting replaces the
entry of a key in place or adds a new one at the end; erasing moves the last entry
to the place of the one that goes.
-/

namespace Registry

variable {κ α : Type} [DecidableEq κ]

/-- The first value of a key in a list of entries. -/
def find? (key : κ) : List (κ × α) → Option α
  | [] => none
  | (present, value) :: rest =>
      if present = key then some value else find? key rest

/-- Replace the first entry of a key, or add one at the end. -/
def place (key : κ) (value : α) : List (κ × α) → List (κ × α)
  | [] => [(key, value)]
  | (present, held) :: rest =>
      if present = key then
        (present, value) :: rest
      else
        (present, held) :: place key value rest

/-- Take out the first entry of a key; the last entry fills the gap. -/
def withdraw (key : κ) : List (κ × α) → List (κ × α)
  | [] => []
  | (present, held) :: rest =>
      if present = key then
        rest.getLast?.toList ++ rest.dropLast
      else
        (present, held) :: withdraw key rest

/-- Where keys are distinct, what a key finds is its entry. -/
theorem find?_eq_some_iff
    {entries : List (κ × α)}
    (distinct : (entries.map Prod.fst).Nodup)
    {key : κ}
    {value : α} :
    find? key entries = some value ↔ (key, value) ∈ entries := by
  induction entries with
  | nil => simp [find?]
  | cons entry rest inductionHypothesis =>
      rcases entry with ⟨present, held⟩
      obtain ⟨single, later⟩ := List.nodup_cons.mp distinct
      by_cases same : present = key
      · have absent : (key, value) ∉ rest := by
          intro member
          exact single (List.mem_map.mpr ⟨_, member, same.symm⟩)
        simp [find?, same, absent, eq_comm]
      · simp [find?, same, Ne.symm same, inductionHypothesis later]

/-- The keys after placing are those there were, and the new one at the end. -/
theorem map_fst_place
    (key : κ)
    (value : α)
    (entries : List (κ × α)) :
    (place key value entries).map Prod.fst =
      entries.map Prod.fst ++
        if key ∈ entries.map Prod.fst then [] else [key] := by
  induction entries with
  | nil => simp [place]
  | cons entry rest inductionHypothesis =>
      rcases entry with ⟨present, held⟩
      by_cases same : present = key
      · simp [place, same]
      · have other : key ≠ present := Ne.symm same
        simp only [place, if_neg same, List.map_cons, inductionHypothesis,
          List.mem_cons, other, false_or, List.cons_append]

theorem nodup_place
    (key : κ)
    (value : α)
    {entries : List (κ × α)}
    (distinct : (entries.map Prod.fst).Nodup) :
    ((place key value entries).map Prod.fst).Nodup := by
  rw [map_fst_place]
  split
  · rwa [List.append_nil]
  · next absent =>
      apply List.nodup_append.mpr
      refine ⟨distinct, List.nodup_cons.mpr ⟨List.not_mem_nil, .nil⟩, ?_⟩
      intro present isPresent added isAdded same
      exact absent (List.mem_singleton.mp isAdded ▸ same ▸ isPresent)

omit [DecidableEq κ] in
/-- The last entry in front of the others: the same entries. -/
theorem getLast?_append_dropLast_perm (entries : List (κ × α)) :
    (entries.getLast?.toList ++ entries.dropLast).Perm entries := by
  cases last : entries.getLast? with
  | none => simp [List.getLast?_eq_none_iff.mp last]
  | some entry =>
      obtain ⟨former, rfl⟩ := List.getLast?_eq_some_iff.mp last
      simpa using (List.perm_append_singleton entry former).symm

/-- What is withdrawn and what is left are the entries there were. -/
theorem withdraw_perm
    (key : κ)
    (entries : List (κ × α)) :
    (((find? key entries).map (key, ·)).toList ++ withdraw key entries).Perm
      entries := by
  induction entries with
  | nil => exact List.Perm.refl _
  | cons entry rest inductionHypothesis =>
      rcases entry with ⟨present, held⟩
      by_cases same : present = key
      · simpa [find?, withdraw, same] using
          getLast?_append_dropLast_perm rest
      · simp only [find?, withdraw, if_neg same]
        exact List.perm_middle.trans (inductionHypothesis.cons _)

theorem nodup_withdraw
    (key : κ)
    {entries : List (κ × α)}
    (distinct : (entries.map Prod.fst).Nodup) :
    ((withdraw key entries).map Prod.fst).Nodup := by
  have kept := ((withdraw_perm key entries).map Prod.fst).nodup_iff.mpr distinct
  rw [List.map_append] at kept
  exact (List.nodup_append.mp kept).2.1

end Registry

/-- Values under distinct keys, in a row. -/
@[ext]
structure Registry (κ α : Type) where
  entries : List (κ × α)
  /-- No key comes in twice. -/
  distinct : (entries.map Prod.fst).Nodup

namespace Registry

variable {κ α : Type} [DecidableEq κ]

omit [DecidableEq κ] in
/-- No entries. -/
def empty : Registry κ α :=
  ⟨[], List.nodup_nil⟩

instance : Inhabited (Registry κ α) :=
  ⟨empty⟩

/-- The value of a key. -/
def get? (registry : Registry κ α) (key : κ) : Option α :=
  find? key registry.entries

/-- Whether a key has a value. -/
def contains (registry : Registry κ α) (key : κ) : Bool :=
  (registry.get? key).isSome

/-- Give a key a value. -/
def put (registry : Registry κ α) (key : κ) (value : α) : Registry κ α :=
  ⟨place key value registry.entries, nodup_place key value registry.distinct⟩

/-- Give a key the value there may be. -/
def accept (registry : Registry κ α) (key : κ) : Option α → Registry κ α
  | some value => registry.put key value
  | none => registry

/-- Take a key's value away. -/
def erase (registry : Registry κ α) (key : κ) : Registry κ α :=
  ⟨withdraw key registry.entries, nodup_withdraw key registry.distinct⟩

@[simp] theorem get?_empty (key : κ) :
    (empty : Registry κ α).get? key = none :=
  rfl

theorem get?_eq_some_iff
    {registry : Registry κ α}
    {key : κ}
    {value : α} :
    registry.get? key = some value ↔ (key, value) ∈ registry.entries :=
  find?_eq_some_iff registry.distinct

/-- After putting, the key has the new value and all others are as before. -/
theorem get?_put
    (registry : Registry κ α)
    (key other : κ)
    (value : α) :
    (registry.put key value).get? other =
      if other = key then some value else registry.get? other := by
  rcases registry with ⟨entries, distinct⟩
  simp only [put, get?]
  clear distinct
  induction entries with
  | nil => simp [place, find?, eq_comm]
  | cons entry rest inductionHypothesis =>
      rcases entry with ⟨present, held⟩
      by_cases here : present = key
      · by_cases found : other = key
        · simp [place, find?, here, found]
        · simp [place, find?, here, found, Ne.symm found]
      · by_cases found : present = other
        · have other : other ≠ key := found ▸ here
          simp [place, find?, found, other]
        · simp [place, find?, here, found, inductionHypothesis]

/-- After erasing, the key has no value and all others are as before. -/
theorem get?_erase
    (registry : Registry κ α)
    (key other : κ) :
    (registry.erase key).get? other =
      if other = key then none else registry.get? other := by
  have parts := withdraw_perm key registry.entries
  have single := (parts.map Prod.fst).nodup_iff.mpr registry.distinct
  rw [List.map_append] at single
  apply Option.ext
  intro value
  by_cases same : other = key
  · subst same
    rw [if_pos rfl, get?_eq_some_iff]
    refine iff_of_false (fun left => ?_) nofun
    -- what is left is among the entries, so the key had a value that went
    have present : registry.get? other = some value :=
      get?_eq_some_iff.mpr (parts.subset (List.mem_append_right _ left))
    refine (List.nodup_append.mp single).2.2 other ?_ other
      (List.mem_map_of_mem left) rfl
    rw [get?] at present
    simp [present]
  · rw [if_neg same, get?_eq_some_iff, get?_eq_some_iff, ← parts.mem_iff,
      List.mem_append, or_iff_right]
    · rfl
    · intro went
      obtain ⟨held, -, isEntry⟩ :=
        Option.map_eq_some_iff.mp (Option.mem_toList.mp went)
      exact same (congrArg Prod.fst isEntry).symm

/-- Nothing goes where there is nothing. -/
theorem erase_of_get?_eq_none
    {registry : Registry κ α}
    {key : κ}
    (absent : registry.get? key = none) :
    registry.erase key = registry := by
  rcases registry with ⟨entries, distinct⟩
  simp only [get?] at absent
  simp only [erase, mk.injEq]
  clear distinct
  induction entries with
  | nil => rfl
  | cons entry rest inductionHypothesis =>
      rcases entry with ⟨present, held⟩
      by_cases same : present = key
      · rw [find?, if_pos same] at absent
        contradiction
      · rw [find?, if_neg same] at absent
        rw [withdraw, if_neg same, inductionHypothesis absent]

end Registry

end Reply
