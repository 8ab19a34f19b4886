import Reply.Payload.Encoding
import Reply.Proofs.Payload.Decoding
import Reply.Proofs.Registry

namespace Reply

/-!
# What a payload binds

An object is what its keys are bound to.  Its entries may be bound in any order, a
later binding of a key replaces an earlier one, and this holds at every depth.  Two
payloads put together from the same bindings are one and the same; two that hold the
same entries in another order at whatever depth have the same digest, because the
entries are sorted first and distinct keys can be sorted in one way only.
-/

namespace Payload

variable {α β : Type}

/-! ## Entries in ascending order -/

/-- Entries in key order, no key coming in twice. -/
def Ascending (entries : List (String × α)) : Prop :=
  entries.Pairwise fun left right => left.1 < right.1

theorem Ascending.distinct
    {entries : List (String × α)}
    (ascending : Ascending entries) :
    (entries.map Prod.fst).Nodup := by
  apply List.pairwise_map.mpr
  exact ascending.imp fun before => String.ne_of_lt before

/-- Ascending entries with the same members are the same list. -/
theorem Ascending.eq_of_mem_iff
    {entries others : List (String × α)}
    (ascending : Ascending entries)
    (ascendingOther : Ascending others)
    (members : ∀ entry, entry ∈ entries ↔ entry ∈ others) :
    entries = others := by
  have perm : entries.Perm others :=
    (List.perm_ext_iff_of_nodup ascending.distinct.of_map
      ascendingOther.distinct.of_map).mpr members
  refine perm.eq_of_pairwise ?_ ascending ascendingOther
  intro left right _ _ before after
  exact absurd after (String.lt_asymm before)

/-- Ascending entries in which every key finds the same are the same list. -/
theorem Ascending.eq_of_find?
    {entries others : List (String × α)}
    (ascending : Ascending entries)
    (ascendingOther : Ascending others)
    (found :
      ∀ key, Registry.find? key entries = Registry.find? key others) :
    entries = others := by
  apply ascending.eq_of_mem_iff ascendingOther
  rintro ⟨key, value⟩
  rw [← Registry.find?_eq_some_iff ascending.distinct,
    ← Registry.find?_eq_some_iff ascendingOther.distinct, found]

/-- Sorting entries with distinct keys puts them in ascending order. -/
theorem ascending_sortByKey
    {entries : List (String × α)}
    (distinct : (entries.map Prod.fst).Nodup) :
    Ascending (sortByKey entries) := by
  have apart :
      (sortByKey entries).Pairwise fun left right => left.1 ≠ right.1 :=
    List.pairwise_map.mp
      (((sortByKey_perm entries).map Prod.fst).nodup_iff.mpr distinct)
  refine (pairwise_sortByKey entries).imp₂ ?_ apart
  intro left right before other
  exact Std.lt_of_le_of_ne before other

/-- Distinct keys can be put in order in one way only. -/
theorem sortByKey_eq_of_perm
    {entries others : List (String × α)}
    (distinct : (entries.map Prod.fst).Nodup)
    (perm : entries.Perm others) :
    sortByKey entries = sortByKey others := by
  have distinctOther := (perm.map Prod.fst).nodup_iff.mp distinct
  apply
    (ascending_sortByKey distinct).eq_of_mem_iff
      (ascending_sortByKey distinctOther)
  intro entry
  rw [(sortByKey_perm entries).mem_iff, (sortByKey_perm others).mem_iff,
    perm.mem_iff]

/-! ## Bindings, one after the other -/

/-- The value a key is bound to in the end: a later binding replaces an earlier one. -/
def bound? (key : String) (bindings : List (String × α)) : Option α :=
  Registry.find? key bindings.reverse

theorem bound?_concat
    (key : String)
    (bindings : List (String × α))
    (last : String × α) :
    bound? key (bindings ++ [last]) =
      if last.1 = key then some last.2 else bound? key bindings := by
  rw [bound?, List.reverse_append]
  rfl

/-- A change of the values changes the value that a key is bound to. -/
theorem bound?_map
    (change : α → β)
    (key : String)
    (bindings : List (String × α)) :
    bound? key (bindings.map fun binding => (binding.1, change binding.2)) =
      (bound? key bindings).map change := by
  induction bindings using List.reverseRecOn with
  | nil => rfl
  | append_singleton bindings last inductionHypothesis =>
      rw [List.map_append, List.map_singleton, bound?_concat, bound?_concat,
        inductionHypothesis]
      split <;> rfl

/-- An entry that is put in is what its key finds, and every other key finds what it did. -/
theorem find?_insertEntry
    (key other : String)
    (value : Payload)
    (entries : List (String × Payload)) :
    Registry.find? other (insertEntry key value entries) =
      if key = other then some value else Registry.find? other entries := by
  induction entries with
  | nil => rfl
  | cons entry rest inductionHypothesis =>
      rcases entry with ⟨present, held⟩
      by_cases before : key < present
      · rw [insertEntry, if_pos before, Registry.find?]
      · rw [insertEntry, if_neg before]
        by_cases same : key = present
        · rw [if_pos same, Registry.find?, Registry.find?, ← same]
          split <;> rfl
        · rw [if_neg same, Registry.find?, Registry.find?, inductionHypothesis]
          by_cases here : present = other
          · rw [if_pos here, if_pos here,
              if_neg fun isKey => same (isKey.trans here.symm)]
          · rw [if_neg here, if_neg here]

theorem ascending_insertEntry
    {entries : List (String × Payload)}
    (ascending : Ascending entries)
    (key : String)
    (value : Payload) :
    Ascending (insertEntry key value entries) := by
  induction entries with
  | nil => exact List.pairwise_singleton ..
  | cons entry rest inductionHypothesis =>
      rcases entry with ⟨present, held⟩
      obtain ⟨first, later⟩ := List.pairwise_cons.mp ascending
      by_cases before : key < present
      · rw [insertEntry, if_pos before]
        apply List.pairwise_cons.mpr ⟨?_, ascending⟩
        intro other member
        rcases List.mem_cons.mp member with rfl | inRest
        · exact before
        · exact String.lt_trans before (first other inRest)
      · rw [insertEntry, if_neg before]
        by_cases same : key = present
        · rw [if_pos same]
          subst same
          exact List.pairwise_cons.mpr ⟨first, later⟩
        · rw [if_neg same]
          apply List.pairwise_cons.mpr ⟨?_, inductionHypothesis later⟩
          intro other member
          rcases mem_insertEntry member with rfl | isOld
          · exact
              Std.lt_of_le_of_ne (String.not_lt.mp before) (Ne.symm same)
          · exact first other isOld

/-- The entries that bindings come to. -/
def entriesOf (bindings : List (String × Payload)) : List (String × Payload) :=
  bindings.foldl (fun built entry => insertEntry entry.1 entry.2 built) []

theorem entriesOf_concat
    (bindings : List (String × Payload))
    (last : String × Payload) :
    entriesOf (bindings ++ [last]) =
      insertEntry last.1 last.2 (entriesOf bindings) :=
  List.foldl_concat ..

/-- Entries are in ascending order, in whatever order they are bound. -/
theorem ascending_entriesOf (bindings : List (String × Payload)) :
    Ascending (entriesOf bindings) := by
  induction bindings using List.reverseRecOn with
  | nil => exact List.Pairwise.nil
  | append_singleton bindings last inductionHypothesis =>
      rw [entriesOf_concat]
      exact ascending_insertEntry inductionHypothesis _ _

/-- A key finds the value that it was bound to last. -/
theorem find?_entriesOf
    (key : String)
    (bindings : List (String × Payload)) :
    Registry.find? key (entriesOf bindings) = bound? key bindings := by
  induction bindings using List.reverseRecOn with
  | nil => rfl
  | append_singleton bindings last inductionHypothesis =>
      rw [entriesOf_concat, find?_insertEntry, bound?_concat,
        inductionHypothesis]

/-- Bindings that come to the same for each key come to the same entries. -/
theorem entriesOf_eq_of_bound?
    {bindings others : List (String × Payload)}
    (same : ∀ key, bound? key bindings = bound? key others) :
    entriesOf bindings = entriesOf others := by
  apply (ascending_entriesOf bindings).eq_of_find? (ascending_entriesOf others)
  intro key
  rw [find?_entriesOf, find?_entriesOf, same]

/-! ## Payloads as they are put together -/

mutual

/--
The payload that comes of putting another together from the inside out: each object
binds its entries one after the other, as they are listed.
-/
def built : Payload → Payload
  | .array items => .array (builtItems items)
  | .object bindings => ofEntries (builtBindings bindings)
  | payload => payload

/-- The items, each put together. -/
def builtItems : List Payload → List Payload
  | [] => []
  | item :: rest => built item :: builtItems rest

/-- The bindings in the order listed, each value put together. -/
def builtBindings : List (String × Payload) → List (String × Payload)
  | [] => []
  | (key, value) :: rest => (key, built value) :: builtBindings rest

end

theorem builtItems_eq_map (items : List Payload) :
    builtItems items = items.map built := by
  induction items with
  | nil => rfl
  | cons item rest inductionHypothesis =>
      simp only [builtItems, List.map_cons, inductionHypothesis]

theorem builtBindings_eq_map (bindings : List (String × Payload)) :
    builtBindings bindings =
      bindings.map fun binding => (binding.1, binding.2.built) := by
  induction bindings with
  | nil => rfl
  | cons binding rest inductionHypothesis =>
      simp only [builtBindings, List.map_cons, inductionHypothesis]

theorem built_array (items : List Payload) :
    (array items).built = .array (items.map built) := by
  rw [built, builtItems_eq_map]

theorem built_object (bindings : List (String × Payload)) :
    (object bindings).built =
      .object
        (entriesOf (bindings.map fun binding => (binding.1, binding.2.built))) := by
  rw [built, builtBindings_eq_map]
  rfl

/--
Two ways of putting a payload together that bind the same keys to the same values in
the end, at every object at every depth.
-/
inductive SameBindings : Payload → Payload → Prop
  | null : SameBindings .null .null
  | bool (value : Bool) : SameBindings (.bool value) (.bool value)
  | whole (value : Whole) : SameBindings (.whole value) (.whole value)
  | real (value : Binary64) : SameBindings (.real value) (.real value)
  | text (value : String) : SameBindings (.text value) (.text value)
  | array
      {items others : List Payload}
      (lengths : items.length = others.length)
      (each :
        ∀ (place : Nat) (item other : Payload),
          items[place]? = some item →
          others[place]? = some other →
          SameBindings item other) :
      SameBindings (.array items) (.array others)
  | object
      {bindings others : List (String × Payload)}
      (keys :
        ∀ key, (bound? key bindings).isSome = (bound? key others).isSome)
      (each :
        ∀ (key : String) (value other : Payload),
          bound? key bindings = some value →
          bound? key others = some other →
          SameBindings value other) :
      SameBindings (.object bindings) (.object others)

/-- Lists of one length with the same image at each place have the same images. -/
theorem map_eq_of_getElem?
    {first second : List α}
    {image : α → β}
    (lengths : first.length = second.length)
    (each :
      ∀ (place : Nat) (item other : α),
        first[place]? = some item →
        second[place]? = some other →
        image item = image other) :
    first.map image = second.map image := by
  apply List.ext_getElem
  · rw [List.length_map, List.length_map, lengths]
  · intro place inFirst inSecond
    rw [List.length_map] at inFirst inSecond
    rw [List.getElem_map, List.getElem_map]
    exact
      each place _ _ (List.getElem?_eq_getElem inFirst)
        (List.getElem?_eq_getElem inSecond)

/-- Ways that bind the same come to one and the same payload. -/
theorem SameBindings.built_eq
    {payload other : Payload}
    (same : payload.SameBindings other) :
    payload.built = other.built := by
  induction same with
  | null | bool | whole | real | text => rfl
  | array lengths _ inductionHypothesis =>
      rw [built_array, built_array,
        map_eq_of_getElem? lengths inductionHypothesis]
  | @object bindings others keys _ inductionHypothesis =>
      rw [built_object, built_object]
      congr 1
      apply entriesOf_eq_of_bound?
      intro key
      rw [bound?_map, bound?_map]
      have both := keys key
      cases here : bound? key bindings with
      | none =>
          rw [here, Option.isSome_none, Eq.comm, Option.isSome_eq_false_iff,
            Option.isNone_iff_eq_none] at both
          rw [both]
      | some value =>
          rw [here, Option.isSome_some, Eq.comm,
            Option.isSome_iff_exists] at both
          obtain ⟨other, there⟩ := both
          rw [there]
          exact congrArg some (inductionHypothesis key value other here there)

/-! ## Payloads as they are held -/

/--
The entries of every object of a payload in another order, at every depth at once.
Objects have distinct keys.
-/
inductive Rearranged : Payload → Payload → Prop
  | null : Rearranged .null .null
  | bool (value : Bool) : Rearranged (.bool value) (.bool value)
  | whole (value : Whole) : Rearranged (.whole value) (.whole value)
  | real (value : Binary64) : Rearranged (.real value) (.real value)
  | text (value : String) : Rearranged (.text value) (.text value)
  | array
      {items others : List Payload}
      (lengths : items.length = others.length)
      (each :
        ∀ (place : Nat) (item other : Payload),
          items[place]? = some item →
          others[place]? = some other →
          Rearranged item other) :
      Rearranged (.array items) (.array others)
  | object
      {entries others : List (String × Payload)}
      (distinct : (entries.map Prod.fst).Nodup)
      (keys : (entries.map Prod.fst).Perm (others.map Prod.fst))
      (each :
        ∀ (key : String) (value other : Payload),
          (key, value) ∈ entries →
          (key, other) ∈ others →
          Rearranged value other) :
      Rearranged (.object entries) (.object others)

/-- What distinct keys are bound to is what their entries hold. -/
theorem bound?_eq_some_iff
    {entries : List (String × α)}
    (distinct : (entries.map Prod.fst).Nodup)
    {key : String}
    {value : α} :
    bound? key entries = some value ↔ (key, value) ∈ entries := by
  rw [bound?, Registry.find?_eq_some_iff, List.mem_reverse]
  rw [List.map_reverse]
  exact List.nodup_reverse.mpr distinct

/-- A key is bound if there is an entry of it. -/
theorem bound?_isSome_iff
    {entries : List (String × α)}
    (distinct : (entries.map Prod.fst).Nodup)
    {key : String} :
    (bound? key entries).isSome ↔ key ∈ entries.map Prod.fst := by
  rw [Option.isSome_iff_exists, List.mem_map]
  constructor
  · rintro ⟨value, bound⟩
    exact ⟨(key, value), (bound?_eq_some_iff distinct).mp bound, rfl⟩
  · rintro ⟨⟨key, value⟩, member, rfl⟩
    exact ⟨value, (bound?_eq_some_iff distinct).mpr member⟩

/-- The entries of an object in another order are the same bindings. -/
theorem Rearranged.sameBindings
    {payload other : Payload}
    (rearranged : payload.Rearranged other) :
    payload.SameBindings other := by
  induction rearranged with
  | null => exact .null
  | bool value => exact .bool value
  | whole value => exact .whole value
  | real value => exact .real value
  | text value => exact .text value
  | array lengths _ inductionHypothesis =>
      exact .array lengths inductionHypothesis
  | @object entries others distinct keys _ inductionHypothesis =>
      have distinctOther := keys.nodup_iff.mp distinct
      refine .object ?_ ?_
      · intro key
        rw [Bool.eq_iff_iff, bound?_isSome_iff distinct,
          bound?_isSome_iff distinctOther, keys.mem_iff]
      · intro key value other here there
        exact
          inductionHypothesis key value other
            ((bound?_eq_some_iff distinct).mp here)
            ((bound?_eq_some_iff distinctOther).mp there)

/-- Two entries are exchanged, and the values in them rearranged. -/
theorem Rearranged.swap
    {first second : String}
    {one oneOther two twoOther : Payload}
    (apart : first ≠ second)
    (ofFirst : one.Rearranged oneOther)
    (ofSecond : two.Rearranged twoOther) :
    Rearranged
      (.object [(first, one), (second, two)])
      (.object [(second, twoOther), (first, oneOther)]) := by
  refine .object (by simpa using apart) (List.Perm.swap ..) ?_
  intro key value other here there
  simp only [List.mem_cons, List.not_mem_nil, or_false,
    Prod.mk.injEq] at here there
  rcases here with ⟨rfl, rfl⟩ | ⟨rfl, rfl⟩
  · obtain ⟨-, rfl⟩ := there.resolve_left fun isSecond => apart isSecond.1
    exact ofFirst
  · obtain ⟨-, rfl⟩ := there.resolve_right fun isFirst => apart isFirst.1.symm
    exact ofSecond

/-- Entries of keys that others have too have the images that those have. -/
theorem map_subset_of_keys
    {entries others : List (String × α)}
    {image : α → β}
    (keys : entries.map Prod.fst ⊆ others.map Prod.fst)
    (each :
      ∀ (key : String) (value other : α),
        (key, value) ∈ entries →
        (key, other) ∈ others →
        image value = image other) :
    (entries.map fun entry => (entry.1, image entry.2)) ⊆
      others.map fun entry => (entry.1, image entry.2) := by
  intro imaged member
  obtain ⟨⟨key, value⟩, inEntries, rfl⟩ := List.mem_map.mp member
  obtain ⟨⟨same, other⟩, inOthers, isKey⟩ :=
    List.mem_map.mp (keys (List.mem_map_of_mem inEntries))
  obtain rfl : same = key := isKey
  refine List.mem_map.mpr ⟨_, inOthers, ?_⟩
  rw [each same value other inEntries inOthers]

/-- Entries under the same distinct keys with the same images are images rearranged. -/
theorem perm_map_of_keys
    {entries others : List (String × α)}
    {image : α → β}
    (distinct : (entries.map Prod.fst).Nodup)
    (keys : (entries.map Prod.fst).Perm (others.map Prod.fst))
    (each :
      ∀ (key : String) (value other : α),
        (key, value) ∈ entries →
        (key, other) ∈ others →
        image value = image other) :
    (entries.map fun entry => (entry.1, image entry.2)).Perm
      (others.map fun entry => (entry.1, image entry.2)) := by
  have single :
      ∀ {list : List (String × α)},
        (list.map Prod.fst).Nodup →
          (list.map fun entry => (entry.1, image entry.2)).Nodup := by
    intro list once
    apply List.Nodup.of_map Prod.fst
    rw [List.map_map]
    exact once
  apply (List.perm_ext_iff_of_nodup (single distinct)
    (single (keys.nodup_iff.mp distinct))).mpr
  intro imaged
  constructor
  · intro member
    exact map_subset_of_keys keys.subset each member
  · intro member
    refine map_subset_of_keys keys.symm.subset ?_ member
    intro key other value inOthers inEntries
    exact (each key value other inEntries inOthers).symm

theorem sorted_object (entries : List (String × Payload)) :
    (object entries).sorted =
      .object
        (sortByKey (entries.map fun entry => (entry.1, entry.2.sorted))) := by
  rw [sorted, sortedEntries_eq_map]

/-- What is rearranged sorts to one and the same payload. -/
theorem Rearranged.sorted_eq
    {payload other : Payload}
    (rearranged : payload.Rearranged other) :
    payload.sorted = other.sorted := by
  induction rearranged with
  | null | bool | whole | real | text => rfl
  | array lengths _ inductionHypothesis =>
      rw [sorted, sorted, sortedItems_eq_map, sortedItems_eq_map,
        map_eq_of_getElem? lengths inductionHypothesis]
  | @object entries others distinct keys _ inductionHypothesis =>
      have perm := perm_map_of_keys distinct keys inductionHypothesis
      have distinctImages :
          ((entries.map fun entry => (entry.1, entry.2.sorted)).map
            Prod.fst).Nodup := by
        rw [List.map_map]
        exact distinct
      rw [sorted_object, sorted_object, sortByKey_eq_of_perm distinctImages perm]

theorem isEmpty_sorted (payload : Payload) :
    payload.sorted.isEmpty = payload.isEmpty := by
  cases payload with
  | array items =>
      rw [sorted, sortedItems_eq_map, isEmpty, isEmpty, List.isEmpty_map]
  | object entries =>
      rw [sorted_object, isEmpty, isEmpty, (sortByKey_perm _).isEmpty_eq,
        List.isEmpty_map]
  | _ => rfl

theorem digest_sorted (payload : Payload) :
    payload.sorted.digest = payload.digest := by
  rw [digest, digest, feed_eq_absorbAll, feed_eq_absorbAll, encode_sorted]

theorem tag?_sorted (payload : Payload) :
    payload.sorted.tag? = payload.tag? := by
  rw [tag?, tag?, isEmpty_sorted, digest_sorted]

/-! ## Payloads that bind each key once -/

/-- Whether every object lists its keys once each and in order, at every depth. -/
inductive InStrictOrder : Payload → Prop
  | null : InStrictOrder .null
  | bool (value : Bool) : InStrictOrder (.bool value)
  | whole (value : Whole) : InStrictOrder (.whole value)
  | real (value : Binary64) : InStrictOrder (.real value)
  | text (value : String) : InStrictOrder (.text value)
  | array
      {items : List Payload}
      (each : ∀ item ∈ items, InStrictOrder item) :
      InStrictOrder (.array items)
  | object
      {entries : List (String × Payload)}
      (ascending : Ascending entries)
      (each : ∀ entry ∈ entries, InStrictOrder entry.2) :
      InStrictOrder (.object entries)

/-- Entries in ascending order are those that they come to as bindings. -/
theorem Ascending.entriesOf_eq
    {entries : List (String × Payload)}
    (ascending : Ascending entries) :
    entriesOf entries = entries := by
  apply (ascending_entriesOf entries).eq_of_find? ascending
  intro key
  rw [find?_entriesOf]
  apply Option.ext
  intro value
  rw [bound?_eq_some_iff ascending.distinct,
    Registry.find?_eq_some_iff ascending.distinct]

/-- Putting together changes nothing in a payload that binds each key once. -/
theorem InStrictOrder.built_eq
    {payload : Payload}
    (ordered : payload.InStrictOrder) :
    payload.built = payload := by
  induction ordered with
  | null | bool | whole | real | text => rfl
  | @array items each inductionHypothesis =>
      rw [built_array, List.map_congr_left inductionHypothesis, List.map_id']
  | @object entries ascending each inductionHypothesis =>
      have same :
          (entries.map fun entry => (entry.1, entry.2.built)) =
            entries.map id :=
        List.map_congr_left fun entry member => by
          rw [inductionHypothesis entry member]
          rfl
      rw [built_object, same, List.map_id, ascending.entriesOf_eq]

/-- The entries that bindings come to are among the bindings. -/
theorem entriesOf_subset (bindings : List (String × Payload)) :
    entriesOf bindings ⊆ bindings := by
  induction bindings using List.reverseRecOn with
  | nil => exact List.Subset.refl _
  | append_singleton bindings last inductionHypothesis =>
      rw [entriesOf_concat]
      intro entry member
      rcases mem_insertEntry member with rfl | isOld
      · exact List.mem_append_right _ List.mem_cons_self
      · exact List.mem_append_left _ (inductionHypothesis isOld)

/-- What is put together binds each key once, in whatever order it was bound. -/
theorem inStrictOrder_built (payload : Payload) :
    payload.built.InStrictOrder := by
  induction payload with
  | null => exact .null
  | bool value => exact .bool value
  | whole value => exact .whole value
  | real value => exact .real value
  | text value => exact .text value
  | array items inductionHypothesis =>
      rw [built_array]
      apply InStrictOrder.array
      intro item member
      obtain ⟨original, isOriginal, rfl⟩ := List.mem_map.mp member
      exact inductionHypothesis original isOriginal
  | object bindings inductionHypothesis =>
      rw [built_object]
      apply InStrictOrder.object (ascending_entriesOf _)
      intro entry member
      obtain ⟨original, isOriginal, rfl⟩ :=
        List.mem_map.mp (entriesOf_subset _ member)
      exact inductionHypothesis original isOriginal

/--
Payloads put together from the same bindings have the same digest and the same tag
and agree on whether they are empty, and so do payloads that hold the same entries in
another order, at all depths at once: however distinct keys are sorted, they come
in one order.  A key of an object that is put together finds the value that it was
bound to last, put together itself, and keys stand once each and in order at every
depth.  An entry that is put into an object is one binding more, and an item that is
pushed is one item more.
-/
theorem bindings_determine_tag :
    (∀ payload other : Payload,
      payload.SameBindings other →
        payload.built.digest = other.built.digest ∧
          payload.built.tag? = other.built.tag? ∧
          payload.built.isEmpty = other.built.isEmpty) ∧
      (∀ payload other : Payload,
        payload.Rearranged other →
          payload.digest = other.digest ∧
            payload.tag? = other.tag? ∧
            payload.isEmpty = other.isEmpty) ∧
      (∀ entries arranged : List (String × Payload),
        (entries.map Prod.fst).Nodup →
          entries.Perm arranged →
          (arranged.Pairwise fun left right => left.1 ≤ right.1) →
          sortByKey entries = arranged) ∧
      (∀ bindings : List (String × Payload),
        ∃ entries : List (String × Payload),
          (object bindings).built = .object entries ∧
            ∀ key,
              Registry.find? key entries = (bound? key bindings).map built) ∧
      (∀ payload : Payload, payload.built.InStrictOrder) ∧
      (∀ (bindings : List (String × Payload)) (key : String) (value : Payload),
        (object bindings).built.insert? key value.built =
          some (object (bindings ++ [(key, value)])).built) ∧
      (∀ (items : List Payload) (item : Payload),
        (array items).built.push? item.built =
          some (array (items ++ [item])).built) := by
  refine
    ⟨?built, ?held, ?ordered, ?found, inStrictOrder_built, ?inserted, ?pushed⟩
  case built =>
    intro payload other same
    rw [same.built_eq]
    exact ⟨rfl, rfl, rfl⟩
  case held =>
    intro payload other rearranged
    have sorted := rearranged.sorted_eq
    rw [← payload.digest_sorted, ← payload.tag?_sorted,
      ← payload.isEmpty_sorted, sorted, other.digest_sorted,
      other.tag?_sorted, other.isEmpty_sorted]
    exact ⟨rfl, rfl, rfl⟩
  case ordered =>
    intro entries arranged distinct perm inOrder
    rw [sortByKey_eq_of_perm distinct perm, sortByKey_of_pairwise inOrder]
  case found =>
    intro bindings
    refine ⟨_, built_object bindings, ?_⟩
    intro key
    rw [find?_entriesOf, bound?_map]
  case inserted =>
    intro bindings key value
    rw [built_object, built_object, List.map_append, List.map_singleton,
      entriesOf_concat]
    rfl
  case pushed =>
    intro items item
    rw [built_array, built_array, List.map_append, List.map_singleton]
    rfl

/--
A key that is bound again finds its last value, wherever the other bindings stand,
also those of an object inside; and two listings of the outcome have one tag.
-/
theorem bindings_determine_tag_rebound_key :
    let upward : Payload := .object [("x", .null), ("y", .bool true)]
    let downward : Payload := .object [("y", .bool true), ("x", .null)]
    let rebound : Payload := .object [("b", .null), ("a", upward), ("b", .text "z")]
    let backward : Payload := .object [("b", .text "z"), ("a", downward)]
    let forward : Payload := .object [("a", upward), ("b", .text "z")]
    rebound.SameBindings backward ∧
      rebound.built.tag? = backward.built.tag? ∧
      (∃ entries,
        rebound.built = .object entries ∧
          Registry.find? "b" entries = some (.text "z")) ∧
      forward.Rearranged backward ∧
      forward.tag? = backward.tag? := by
  intro upward downward rebound backward forward
  have turned : upward.Rearranged downward :=
    .swap (show "x" ≠ "y" by decide) .null (.bool true)
  have same : rebound.SameBindings backward := by
    refine .object ?_ ?_
    · intro key
      by_cases isA : "a" = key <;> by_cases isB : "b" = key <;>
        simp [bound?, Registry.find?, isA, isB]
    · intro key value other here there
      by_cases isA : "a" = key
      · subst isA
        rw [← Option.some.inj here, ← Option.some.inj there]
        exact turned.sameBindings
      · by_cases isB : "b" = key
        · subst isB
          rw [← Option.some.inj here, ← Option.some.inj there]
          exact .text "z"
        · simp [bound?, Registry.find?, isA, isB] at here
  have arranged : forward.Rearranged backward :=
    .swap (show "a" ≠ "b" by decide) turned (.text "z")
  obtain ⟨built, held, -, found, -⟩ := bindings_determine_tag
  obtain ⟨entries, outcome, finds⟩ :=
    found [("b", .null), ("a", upward), ("b", .text "z")]
  exact
    ⟨same, (built _ _ same).2.1, ⟨entries, outcome, finds "b"⟩, arranged,
      (held _ _ arranged).2.1⟩

end Payload

end Reply
