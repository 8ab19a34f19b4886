import Mathlib.Data.List.Basic
import Reply.Payload.Encoding

namespace Reply

/-!
# Payloads in key order

Sorting by key moves whole entries and never looks at their values, so it
commutes with every change of the values alone.  A payload is in key order when
each of its objects lists its entries that way, at every depth; sorting all
objects of a payload leaves its canonical octets as they are.
-/

namespace Payload

variable {α β : Type}

/-- Sorting by key commutes with a change of the values. -/
theorem sortByKey_map
    (change : α → β)
    (entries : List (String × α)) :
    sortByKey (entries.map fun entry => (entry.1, change entry.2)) =
      (sortByKey entries).map fun entry => (entry.1, change entry.2) := by
  unfold sortByKey
  rw [List.map_mergeSort]
  intro left _ right _
  rfl

/-- Entries already in key order stay where they are. -/
theorem sortByKey_of_pairwise
    {entries : List (String × α)}
    (ordered : entries.Pairwise fun left right => left.1 ≤ right.1) :
    sortByKey entries = entries := by
  unfold sortByKey
  apply List.mergeSort_of_pairwise
  exact ordered.imp fun before => decide_eq_true before

/-- Sorting by key puts entries in key order. -/
theorem pairwise_sortByKey (entries : List (String × α)) :
    (sortByKey entries).Pairwise fun left right => left.1 ≤ right.1 := by
  have transitive :
      ∀ first second third : String × α,
        decide (first.1 ≤ second.1) = true →
        decide (second.1 ≤ third.1) = true →
        decide (first.1 ≤ third.1) = true := by
    intro first second third before after
    exact decide_eq_true
      (String.le_trans (of_decide_eq_true before) (of_decide_eq_true after))
  have total :
      ∀ left right : String × α,
        (decide (left.1 ≤ right.1) || decide (right.1 ≤ left.1)) = true := by
    intro left right
    rcases String.le_total left.1 right.1 with before | after
    · simp [before]
    · simp [after]
  have sorted := List.pairwise_mergeSort transitive total entries
  exact sorted.imp of_decide_eq_true

/-- Sorting by key only rearranges. -/
theorem sortByKey_perm (entries : List (String × α)) :
    (sortByKey entries).Perm entries :=
  List.mergeSort_perm ..

@[simp] theorem length_sortByKey (entries : List (String × α)) :
    (sortByKey entries).length = entries.length :=
  List.length_mergeSort ..

/-! ## Octets of items and entries -/

theorem encodeItems_eq_flatMap (items : List Payload) :
    encodeItems items = items.flatMap encode := by
  induction items with
  | nil => rfl
  | cons item rest inductionHypothesis =>
      simp only [encodeItems, List.flatMap_cons, inductionHypothesis]

theorem encodeValues_eq_map (entries : List (String × Payload)) :
    encodeValues entries =
      entries.map fun entry => (entry.1, entry.2.encode) := by
  induction entries with
  | nil => rfl
  | cons entry rest inductionHypothesis =>
      simp only [encodeValues, List.map_cons, inductionHypothesis]

/-- The canonical octets of one entry: the key with its length, the value. -/
def encodeEntry (entry : String × Payload) : Octets :=
  sized (utf8 entry.1) ++ entry.2.encode

/-- The entries of an object are written in key order. -/
theorem encode_object (entries : List (String × Payload)) :
    (object entries).encode =
      0x6f ::
        (wordOctets (UInt64.ofNat entries.length) ++
          (sortByKey entries).flatMap encodeEntry) := by
  rw [encode, encodeValues_eq_map, sortByKey_map encode, List.flatMap_map]
  rfl

/-- The items of an array are written in order. -/
theorem encode_array (items : List Payload) :
    (array items).encode =
      0x61 ::
        (wordOctets (UInt64.ofNat items.length) ++ items.flatMap encode) := by
  rw [encode, encodeItems_eq_flatMap]

/-! ## Induction over payloads -/

/-- What holds of a payload once it holds of its parts holds of every payload. -/
@[elab_as_elim, induction_eliminator] theorem inductOnParts
    {motive : Payload → Prop}
    (null : motive .null)
    (bool : ∀ value, motive (.bool value))
    (whole : ∀ value, motive (.whole value))
    (real : ∀ value, motive (.real value))
    (text : ∀ value, motive (.text value))
    (array :
      ∀ items, (∀ item ∈ items, motive item) → motive (.array items))
    (object :
      ∀ entries, (∀ entry ∈ entries, motive entry.2) →
        motive (.object entries))
    (payload : Payload) :
    motive payload := by
  refine
    @Payload.rec motive
      (fun items => ∀ item ∈ items, motive item)
      (fun entries => ∀ entry ∈ entries, motive entry.2)
      (fun entry => motive entry.2)
      null bool whole real text array object
      ?_ ?_ ?_ ?_ (fun _ _ holds => holds) payload
  · intro item member
    contradiction
  · intro item rest holds each
    exact List.forall_mem_cons.mpr ⟨holds, each⟩
  · intro entry member
    contradiction
  · intro entry rest holds each
    exact List.forall_mem_cons.mpr ⟨holds, each⟩

/-! ## Sorting at every depth -/

mutual

/-- The payload with the entries of every object in key order. -/
def sorted : Payload → Payload
  | .array items => .array (sortedItems items)
  | .object entries => .object (sortByKey (sortedEntries entries))
  | payload => payload

/-- The items with all their objects in key order. -/
def sortedItems : List Payload → List Payload
  | [] => []
  | item :: rest => sorted item :: sortedItems rest

/-- The entries as they come, each value with its objects in key order. -/
def sortedEntries : List (String × Payload) → List (String × Payload)
  | [] => []
  | (key, value) :: rest => (key, sorted value) :: sortedEntries rest

end

theorem sortedItems_eq_map (items : List Payload) :
    sortedItems items = items.map sorted := by
  induction items with
  | nil => rfl
  | cons item rest inductionHypothesis =>
      simp only [sortedItems, List.map_cons, inductionHypothesis]

theorem sortedEntries_eq_map (entries : List (String × Payload)) :
    sortedEntries entries =
      entries.map fun entry => (entry.1, entry.2.sorted) := by
  induction entries with
  | nil => rfl
  | cons entry rest inductionHypothesis =>
      simp only [sortedEntries, List.map_cons, inductionHypothesis]

/-- Whether every object lists its entries in key order, at every depth. -/
inductive InKeyOrder : Payload → Prop
  | null : InKeyOrder .null
  | bool (value : Bool) : InKeyOrder (.bool value)
  | whole (value : Whole) : InKeyOrder (.whole value)
  | real (value : Binary64) : InKeyOrder (.real value)
  | text (value : String) : InKeyOrder (.text value)
  | array
      {items : List Payload}
      (each : ∀ item ∈ items, InKeyOrder item) :
      InKeyOrder (.array items)
  | object
      {entries : List (String × Payload)}
      (ordered : entries.Pairwise fun left right => left.1 ≤ right.1)
      (each : ∀ entry ∈ entries, InKeyOrder entry.2) :
      InKeyOrder (.object entries)

theorem inKeyOrder_array_iff {items : List Payload} :
    (array items).InKeyOrder ↔ ∀ item ∈ items, item.InKeyOrder := by
  constructor
  · intro ordered
    cases ordered with
    | array each => exact each
  · exact .array

theorem inKeyOrder_object_iff {entries : List (String × Payload)} :
    (object entries).InKeyOrder ↔
      (entries.Pairwise fun left right => left.1 ≤ right.1) ∧
        ∀ entry ∈ entries, entry.2.InKeyOrder := by
  constructor
  · intro ordered
    cases ordered with
    | object ordered each => exact ⟨ordered, each⟩
  · rintro ⟨ordered, each⟩
    exact .object ordered each

/-- A sorted payload is in key order. -/
theorem inKeyOrder_sorted (payload : Payload) :
    payload.sorted.InKeyOrder := by
  induction payload with
  | null => exact .null
  | bool value => exact .bool value
  | whole value => exact .whole value
  | real value => exact .real value
  | text value => exact .text value
  | array items inductionHypothesis =>
      rw [sorted, sortedItems_eq_map]
      apply InKeyOrder.array
      intro item member
      obtain ⟨original, originalMember, rfl⟩ := List.mem_map.mp member
      exact inductionHypothesis original originalMember
  | object entries inductionHypothesis =>
      rw [sorted, sortedEntries_eq_map]
      apply InKeyOrder.object (pairwise_sortByKey _)
      intro entry member
      have unsorted := (sortByKey_perm _).subset member
      obtain ⟨original, originalMember, rfl⟩ := List.mem_map.mp unsorted
      exact inductionHypothesis original originalMember

/-- Sorting keeps the canonical octets. -/
theorem encode_sorted (payload : Payload) :
    payload.sorted.encode = payload.encode := by
  induction payload with
  | null | bool | whole | real | text => rfl
  | array items inductionHypothesis =>
      rw [sorted, sortedItems_eq_map, encode_array, encode_array,
        List.length_map, List.flatMap_map]
      have same :
          items.flatMap (fun item => item.sorted.encode) =
            items.flatMap encode :=
        List.flatMap_congr inductionHypothesis
      rw [same]
  | object entries inductionHypothesis =>
      rw [sorted, sortedEntries_eq_map, encode_object, encode_object,
        sortByKey_of_pairwise (pairwise_sortByKey _), length_sortByKey,
        List.length_map, sortByKey_map sorted, List.flatMap_map]
      have same :
          (sortByKey entries).flatMap
              (fun entry => encodeEntry (entry.1, entry.2.sorted)) =
            (sortByKey entries).flatMap encodeEntry :=
        List.flatMap_congr fun entry member => by
          have held := (sortByKey_perm entries).subset member
          simp only [encodeEntry, inductionHypothesis entry held]
      rw [same]

/-- Sorting changes nothing in a payload that is in key order. -/
theorem InKeyOrder.sorted_eq
    {payload : Payload}
    (ordered : payload.InKeyOrder) :
    payload.sorted = payload := by
  induction ordered with
  | null | bool | whole | real | text => rfl
  | @array items each inductionHypothesis =>
      rw [sorted, sortedItems_eq_map]
      have same : items.map sorted = items.map id :=
        List.map_congr_left inductionHypothesis
      rw [same, List.map_id]
  | @object entries ordered each inductionHypothesis =>
      rw [sorted, sortedEntries_eq_map]
      have same :
          entries.map (fun entry => (entry.1, entry.2.sorted)) =
            entries.map id :=
        List.map_congr_left fun entry member => by
          rw [inductionHypothesis entry member]
          rfl
      rw [same, List.map_id, sortByKey_of_pairwise ordered]

/-! ## Entries put in -/

/-- An entry after putting one in is the new one or was there before. -/
theorem mem_insertEntry
    {key : String}
    {value : Payload}
    {entries : List (String × Payload)}
    {entry : String × Payload}
    (member : entry ∈ insertEntry key value entries) :
    entry = (key, value) ∨ entry ∈ entries := by
  induction entries with
  | nil =>
      exact Or.inl (List.mem_singleton.mp member)
  | cons head rest inductionHypothesis =>
      rcases head with ⟨present, held⟩
      by_cases before : key < present
      · rw [insertEntry, if_pos before] at member
        exact List.mem_cons.mp member
      · rw [insertEntry, if_neg before] at member
        by_cases same : key = present
        · rw [if_pos same] at member
          rcases List.mem_cons.mp member with isNew | inRest
          · exact Or.inl isNew
          · exact Or.inr (List.mem_cons_of_mem _ inRest)
        · rw [if_neg same] at member
          rcases List.mem_cons.mp member with isHead | inRest
          · exact Or.inr (List.mem_cons.mpr (Or.inl isHead))
          · rcases inductionHypothesis inRest with isNew | isOld
            · exact Or.inl isNew
            · exact Or.inr (List.mem_cons_of_mem _ isOld)

end Payload

end Reply
