import Mathlib
import Reply.Proofs.Payload.KeyOrder

namespace Reply

/-!
# Canonical octets decode uniquely

A digest absorbs exactly the canonical octets of a payload, and those can be
read back whatever follows them.  Every kind of payload starts with a mark of its
own, every number takes eight octets, and all that varies in width comes after
its own length.  A payload is therefore never confused with another before the
octets are absorbed.
-/

/-! ## Words and sized octets -/

/-- A word is the sum of its octets at their places. -/
theorem toNat_eq_sum_wordOctets (word : UInt64) :
    word.toNat =
      word.toUInt8.toNat +
        2 ^ 8 * (word >>> 8).toUInt8.toNat +
        2 ^ 16 * (word >>> 16).toUInt8.toNat +
        2 ^ 24 * (word >>> 24).toUInt8.toNat +
        2 ^ 32 * (word >>> 32).toUInt8.toNat +
        2 ^ 40 * (word >>> 40).toUInt8.toNat +
        2 ^ 48 * (word >>> 48).toUInt8.toNat +
        2 ^ 56 * (word >>> 56).toUInt8.toNat := by
  have bounded := word.toNat_lt
  simp only [UInt64.toNat_toUInt8, UInt64.toNat_shiftRight,
    Nat.shiftRight_eq_div_pow, UInt64.reduceToNat, Nat.reduceMod]
  omega

/-- Distinct words have distinct octets. -/
theorem wordOctets_injective
    {left right : UInt64}
    (same : wordOctets left = wordOctets right) :
    left = right := by
  simp only [wordOctets, List.cons.injEq, and_true] at same
  obtain ⟨first, second, third, fourth, fifth, sixth, seventh, eighth⟩ := same
  apply UInt64.toNat.inj
  rw [toNat_eq_sum_wordOctets left, toNat_eq_sum_wordOctets right,
    first, second, third, fourth, fifth, sixth, seventh, eighth]

/-- A word in front of other octets can be read off. -/
theorem wordOctets_append_inj
    {left right : UInt64}
    {rest other : Octets}
    (same : wordOctets left ++ rest = wordOctets right ++ other) :
    left = right ∧ rest = other := by
  obtain ⟨words, rests⟩ := List.append_inj same rfl
  exact ⟨wordOctets_injective words, rests⟩

/-- A count below 2^64 can be read off as a word. -/
theorem countOctets_append_inj
    {left right : Nat}
    (leftShort : left < 2 ^ 64)
    (rightShort : right < 2 ^ 64)
    {rest other : Octets}
    (same :
      wordOctets (UInt64.ofNat left) ++ rest =
        wordOctets (UInt64.ofNat right) ++ other) :
    left = right ∧ rest = other := by
  obtain ⟨words, rests⟩ := wordOctets_append_inj same
  refine ⟨?_, rests⟩
  have values := congrArg UInt64.toNat words
  rwa [UInt64.toNat_ofNat_of_lt' leftShort,
    UInt64.toNat_ofNat_of_lt' rightShort] at values

/-- Sized octets in front of others can be read off. -/
theorem sized_append_inj
    {left right : Octets}
    (leftShort : left.length < 2 ^ 64)
    (rightShort : right.length < 2 ^ 64)
    {rest other : Octets}
    (same : sized left ++ rest = sized right ++ other) :
    left = right ∧ rest = other := by
  simp only [sized, List.append_assoc] at same
  obtain ⟨lengths, tails⟩ :=
    countOctets_append_inj leftShort rightShort same
  exact List.append_inj tails lengths

/-- The word of an integer is its remainder modulo 2^64. -/
theorem Whole.toNat_word (number : Whole) :
    number.word.toNat = (number.value % 2 ^ 64).toNat := by
  unfold word
  apply UInt64.toNat_ofNat_of_lt'
  simp only [UInt64.size]
  omega

/-- Distinct integers of one sign class have distinct words. -/
theorem Whole.word_injective
    {left right : Whole}
    (signs : left.isSigned = right.isSigned)
    (words : left.word = right.word) :
    left = right := by
  rcases left with ⟨left, leftLower, leftUpper⟩
  rcases right with ⟨right, rightLower, rightUpper⟩
  have values := congrArg UInt64.toNat words
  simp only [toNat_word] at values
  simp only [isSigned, decide_eq_decide] at signs
  simp only [mk.injEq]
  omega

namespace Payload

variable {α : Type}

/-- Items that can each be read off can be read off in a row of known length. -/
theorem flatMap_append_inj
    {write : α → Octets}
    {left right : List α}
    (readOff :
      ∀ item ∈ left, ∀ other ∈ right, ∀ rest remaining,
        write item ++ rest = write other ++ remaining →
        item = other ∧ rest = remaining)
    (lengths : left.length = right.length)
    {rest remaining : Octets}
    (same : left.flatMap write ++ rest = right.flatMap write ++ remaining) :
    left = right ∧ rest = remaining := by
  induction left generalizing right with
  | nil =>
      have empty : right = [] := List.length_eq_zero_iff.mp lengths.symm
      subst empty
      exact ⟨rfl, same⟩
  | cons item items inductionHypothesis =>
      cases right with
      | nil => contradiction
      | cons other others =>
          simp only [List.flatMap_cons, List.append_assoc] at same
          obtain ⟨heads, tails⟩ :=
            readOff item List.mem_cons_self other List.mem_cons_self _ _ same
          obtain ⟨remainders, rests⟩ :=
            inductionHypothesis
              (fun item member other otherMember =>
                readOff item (List.mem_cons_of_mem _ member)
                  other (List.mem_cons_of_mem _ otherMember))
              (Nat.succ.inj lengths) tails
          exact ⟨by rw [heads, remainders], rests⟩

/-- Whether every text, array and object is shorter than 2^64, at every depth. -/
inductive Fits : Payload → Prop
  | null : Fits .null
  | bool (value : Bool) : Fits (.bool value)
  | whole (value : Whole) : Fits (.whole value)
  | real (value : Binary64) : Fits (.real value)
  | text
      {value : String}
      (short : value.utf8ByteSize < 2 ^ 64) :
      Fits (.text value)
  | array
      {items : List Payload}
      (short : items.length < 2 ^ 64)
      (each : ∀ item ∈ items, Fits item) :
      Fits (.array items)
  | object
      {entries : List (String × Payload)}
      (short : entries.length < 2 ^ 64)
      (keys : ∀ entry ∈ entries, entry.1.utf8ByteSize < 2 ^ 64)
      (each : ∀ entry ∈ entries, Fits entry.2) :
      Fits (.object entries)

theorem fits_text_iff {value : String} :
    (text value).Fits ↔ value.utf8ByteSize < 2 ^ 64 := by
  constructor
  · intro fits
    cases fits with
    | text short => exact short
  · exact .text

theorem fits_array_iff {items : List Payload} :
    (array items).Fits ↔
      items.length < 2 ^ 64 ∧ ∀ item ∈ items, item.Fits := by
  constructor
  · intro fits
    cases fits with
    | array short each => exact ⟨short, each⟩
  · rintro ⟨short, each⟩
    exact .array short each

theorem fits_object_iff {entries : List (String × Payload)} :
    (object entries).Fits ↔
      entries.length < 2 ^ 64 ∧
        (∀ entry ∈ entries, entry.1.utf8ByteSize < 2 ^ 64) ∧
          ∀ entry ∈ entries, entry.2.Fits := by
  constructor
  · intro fits
    cases fits with
    | object short keys each => exact ⟨short, keys, each⟩
  · rintro ⟨short, keys, each⟩
    exact .object short keys each

/-- Sorting keeps all lengths. -/
theorem Fits.sorted
    {payload : Payload}
    (fits : payload.Fits) :
    payload.sorted.Fits := by
  induction fits with
  | null => exact .null
  | bool value => exact .bool value
  | whole value => exact .whole value
  | real value => exact .real value
  | text short => exact .text short
  | @array items short each inductionHypothesis =>
      rw [Payload.sorted, sortedItems_eq_map]
      apply Fits.array
      · rwa [List.length_map]
      · intro item member
        obtain ⟨original, originalMember, rfl⟩ := List.mem_map.mp member
        exact inductionHypothesis original originalMember
  | @object entries short keys each inductionHypothesis =>
      rw [Payload.sorted, sortedEntries_eq_map]
      have origin :
          ∀ entry ∈ sortByKey
              (entries.map fun entry => (entry.1, entry.2.sorted)),
            ∃ original ∈ entries, (original.1, original.2.sorted) = entry := by
        intro entry member
        exact List.mem_map.mp ((sortByKey_perm _).subset member)
      apply Fits.object
      · rwa [length_sortByKey, List.length_map]
      · intro entry member
        obtain ⟨original, originalMember, rfl⟩ := origin entry member
        exact keys original originalMember
      · intro entry member
        obtain ⟨original, originalMember, rfl⟩ := origin entry member
        exact inductionHypothesis original originalMember

/-! ## The mark of a payload -/

/-- The octet that every payload of a kind starts with. -/
def mark : Payload → UInt8
  | .null => 0x6e
  | .bool value => if value then 0x74 else 0x66
  | .whole number => if number.isSigned then 0x69 else 0x75
  | .real _ => 0x64
  | .text _ => 0x73
  | .array _ => 0x61
  | .object _ => 0x6f

/-- What follows the mark. -/
def content : Payload → Octets
  | .null => []
  | .bool _ => []
  | .whole number => wordOctets number.word
  | .real number => wordOctets number.bits
  | .text value => sized (utf8 value)
  | .array items =>
      wordOctets (UInt64.ofNat items.length) ++ items.flatMap encode
  | .object entries =>
      wordOctets (UInt64.ofNat entries.length) ++
        (sortByKey entries).flatMap encodeEntry

/-- The canonical octets are the mark and what follows it. -/
theorem encode_eq_mark_cons (payload : Payload) :
    payload.encode = payload.mark :: payload.content := by
  cases payload with
  | null => rfl
  | bool value => cases value <;> rfl
  | whole value => rfl
  | real value => rfl
  | text value => rfl
  | array items => exact encode_array items
  | object entries => exact encode_object entries

/-- Equal octets start with equal marks, and equal octets follow. -/
theorem mark_content_of_encode
    {left right : Payload}
    {rest other : Octets}
    (same : left.encode ++ rest = right.encode ++ other) :
    left.mark = right.mark ∧ left.content ++ rest = right.content ++ other := by
  rw [encode_eq_mark_cons, encode_eq_mark_cons] at same
  exact List.cons.inj same

/-- Payloads in key order can be read off whatever follows them. -/
theorem encode_append_inj
    {left right : Payload}
    (leftOrdered : left.InKeyOrder)
    (rightOrdered : right.InKeyOrder)
    (leftFits : left.Fits)
    (rightFits : right.Fits)
    {rest other : Octets}
    (same : left.encode ++ rest = right.encode ++ other) :
    left = right ∧ rest = other := by
  induction left generalizing right rest other with
  | null =>
      obtain ⟨marks, contents⟩ := mark_content_of_encode same
      cases right with
      | null => exact ⟨rfl, contents⟩
      | _ => grind [mark]
  | bool value =>
      obtain ⟨marks, contents⟩ := mark_content_of_encode same
      cases right with
      | bool value => exact ⟨by grind [mark], contents⟩
      | _ => grind [mark]
  | whole number =>
      obtain ⟨marks, contents⟩ := mark_content_of_encode same
      cases right with
      | whole other =>
          have signs : number.isSigned = other.isSigned := by
            grind [mark]
          obtain ⟨words, rests⟩ := wordOctets_append_inj contents
          exact ⟨by rw [Whole.word_injective signs words], rests⟩
      | _ => grind [mark]
  | real number =>
      obtain ⟨marks, contents⟩ := mark_content_of_encode same
      cases right with
      | real other =>
          obtain ⟨words, rests⟩ := wordOctets_append_inj contents
          rcases number with ⟨bits, finite⟩
          rcases other with ⟨otherBits, otherFinite⟩
          cases words
          exact ⟨rfl, rests⟩
      | _ => grind [mark]
  | text value =>
      obtain ⟨marks, contents⟩ := mark_content_of_encode same
      cases right with
      | text other =>
          obtain ⟨octets, rests⟩ :=
            sized_append_inj
              (fits_text_iff.mp leftFits) (fits_text_iff.mp rightFits)
              contents
          exact ⟨by rw [utf8_injective octets], rests⟩
      | _ => grind [mark]
  | array items inductionHypothesis =>
      obtain ⟨marks, contents⟩ := mark_content_of_encode same
      cases right with
      | array others =>
          have leftEach := inKeyOrder_array_iff.mp leftOrdered
          have rightEach := inKeyOrder_array_iff.mp rightOrdered
          obtain ⟨leftShort, leftFits⟩ := fits_array_iff.mp leftFits
          obtain ⟨rightShort, rightFits⟩ := fits_array_iff.mp rightFits
          simp only [content, List.append_assoc] at contents
          obtain ⟨lengths, tails⟩ :=
            countOctets_append_inj leftShort rightShort contents
          obtain ⟨items, rests⟩ :=
            flatMap_append_inj
              (fun item member other otherMember _ _ =>
                inductionHypothesis item member
                  (leftEach item member) (rightEach other otherMember)
                  (leftFits item member) (rightFits other otherMember))
              lengths tails
          exact ⟨by rw [items], rests⟩
      | _ => grind [mark]
  | object entries inductionHypothesis =>
      obtain ⟨marks, contents⟩ := mark_content_of_encode same
      cases right with
      | object others =>
          obtain ⟨leftSorted, leftEach⟩ :=
            inKeyOrder_object_iff.mp leftOrdered
          obtain ⟨rightSorted, rightEach⟩ :=
            inKeyOrder_object_iff.mp rightOrdered
          obtain ⟨leftShort, leftKeys, leftFits⟩ :=
            fits_object_iff.mp leftFits
          obtain ⟨rightShort, rightKeys, rightFits⟩ :=
            fits_object_iff.mp rightFits
          simp only [content, List.append_assoc,
            sortByKey_of_pairwise leftSorted,
            sortByKey_of_pairwise rightSorted] at contents
          obtain ⟨lengths, tails⟩ :=
            countOctets_append_inj leftShort rightShort contents
          have entryReadOff :
              ∀ entry ∈ entries, ∀ other ∈ others, ∀ rest remaining,
                encodeEntry entry ++ rest = encodeEntry other ++ remaining →
                entry = other ∧ rest = remaining := by
            rintro ⟨key, value⟩ member ⟨otherKey, other⟩ otherMember
              rest remaining same
            simp only [encodeEntry, List.append_assoc] at same
            obtain ⟨keys, values⟩ :=
              sized_append_inj
                (leftKeys _ member) (rightKeys _ otherMember) same
            obtain ⟨heads, rests⟩ :=
              inductionHypothesis _ member
                (leftEach _ member) (rightEach _ otherMember)
                (leftFits _ member) (rightFits _ otherMember) values
            exact ⟨Prod.ext (utf8_injective keys) heads, rests⟩
          obtain ⟨entries, rests⟩ :=
            flatMap_append_inj entryReadOff lengths tails
          exact ⟨by rw [entries], rests⟩
      | _ => grind [mark]

/-! ## The digest of the canonical octets -/

theorem absorbSized_eq_absorbAll
    (state : UInt64)
    (octets : Octets) :
    absorbSized state octets = Digest.absorbAll state (sized octets) := by
  rw [absorbSized, sized, Digest.absorbAll_append]

theorem feedItems_eq_foldl
    (items : List Payload)
    (state : UInt64) :
    feedItems items state =
      items.foldl (fun reached item => feed item reached) state := by
  induction items generalizing state with
  | nil => rfl
  | cons item rest inductionHypothesis =>
      exact inductionHypothesis _

theorem feeders_eq_map (entries : List (String × Payload)) :
    feeders entries = entries.map fun entry => (entry.1, entry.2.feed) := by
  induction entries with
  | nil => rfl
  | cons entry rest inductionHypothesis =>
      simp only [feeders, List.map_cons, inductionHypothesis]

/-- Folding steps that each absorb a run absorbs the runs in a row. -/
theorem foldl_eq_absorbAll
    {step : UInt64 → α → UInt64}
    {write : α → Octets}
    {items : List α}
    (each :
      ∀ item ∈ items, ∀ state,
        step state item = Digest.absorbAll state (write item))
    (state : UInt64) :
    items.foldl step state = Digest.absorbAll state (items.flatMap write) := by
  induction items generalizing state with
  | nil => rfl
  | cons item rest inductionHypothesis =>
      obtain ⟨here, later⟩ := List.forall_mem_cons.mp each
      rw [List.foldl_cons, List.flatMap_cons, Digest.absorbAll_append,
        inductionHypothesis later, here]

/-- Feeding a payload absorbs its canonical octets. -/
theorem feed_eq_absorbAll
    (payload : Payload)
    (state : UInt64) :
    payload.feed state = Digest.absorbAll state payload.encode := by
  induction payload generalizing state with
  | null =>
      rw [feed, encode, Digest.absorbAll_cons, Digest.absorbAll_nil]
  | bool value =>
      cases value with
      | false =>
          rw [feed, encode, Digest.absorbAll_cons, Digest.absorbAll_nil]
      | true =>
          rw [feed, encode, Digest.absorbAll_cons, Digest.absorbAll_nil]
  | whole number => rw [feed, encode]
  | real number => rw [feed, encode, Digest.absorbAll_cons]
  | text value =>
      rw [feed, encode, absorbSized_eq_absorbAll, Digest.absorbAll_cons]
  | array items inductionHypothesis =>
      rw [feed, encode_array, feedItems_eq_foldl,
        foldl_eq_absorbAll inductionHypothesis, Digest.absorbAll_cons,
        Digest.absorbAll_append]
  | object entries inductionHypothesis =>
      rw [feed, encode_object, feeders_eq_map, sortByKey_map, List.foldl_map,
        Digest.absorbAll_cons, Digest.absorbAll_append]
      apply foldl_eq_absorbAll
      intro entry member state
      have held := (sortByKey_perm entries).subset member
      rw [encodeEntry, Digest.absorbAll_append, absorbSized_eq_absorbAll]
      exact inductionHypothesis entry held _

/--
A digest is the FNV-1a digest of the canonical octets, and these lose nothing:
whatever follows them, they determine the payload up to the order in which
objects list their entries, and a payload in key order determines itself.
-/
theorem digest_loses_nothing :
    (∀ payload : Payload,
      payload.digest = Digest.ofOctets payload.encode) ∧
    (∀ left right : Payload,
      left.Fits →
      right.Fits →
      ∀ rest other : Octets,
        left.encode ++ rest = right.encode ++ other →
        left.sorted = right.sorted ∧
          rest = other ∧
          (left.InKeyOrder → right.InKeyOrder → left = right)) := by
  constructor
  · intro payload
    exact feed_eq_absorbAll payload Digest.start
  · intro left right leftFits rightFits rest other same
    rw [← encode_sorted left, ← encode_sorted right] at same
    obtain ⟨payloads, rests⟩ :=
      encode_append_inj
        left.inKeyOrder_sorted right.inKeyOrder_sorted
        leftFits.sorted rightFits.sorted same
    refine ⟨payloads, rests, ?_⟩
    intro leftOrdered rightOrdered
    rwa [leftOrdered.sorted_eq, rightOrdered.sorted_eq] at payloads

/-- Two listings of one object have the same octets, and sort to one payload. -/
theorem digest_loses_nothing_two_listings :
    (object [("b", text "x"), ("a", array [bool true])]).Fits ∧
    (object [("a", array [bool true]), ("b", text "x")]).Fits ∧
    (object [("b", text "x"), ("a", array [bool true])]).encode ++ [0x6e] =
      (object [("a", array [bool true]), ("b", text "x")]).encode ++ [0x6e] ∧
    (object [("b", text "x"), ("a", array [bool true])]).sorted =
      (object [("a", array [bool true]), ("b", text "x")]).sorted := by
  have leftFits :
      (object [("b", text "x"), ("a", array [bool true])]).Fits := by
    simp only [fits_object_iff, List.forall_mem_cons]
    exact
      ⟨by decide, ⟨by decide, by decide, by simp⟩, .text (by decide),
        .array (by decide) (by simp [Fits.bool]), by simp⟩
  have rightFits :
      (object [("a", array [bool true]), ("b", text "x")]).Fits := by
    simp only [fits_object_iff, List.forall_mem_cons]
    exact
      ⟨by decide, ⟨by decide, by decide, by simp⟩,
        .array (by decide) (by simp [Fits.bool]), .text (by decide), by simp⟩
  have same :
      (object [("b", text "x"), ("a", array [bool true])]).encode ++ [0x6e] =
        (object [("a", array [bool true]), ("b", text "x")]).encode ++
          [0x6e] := by
    simp [encode, encodeValues, sortByKey, List.mergeSort]
  exact
    ⟨leftFits, rightFits, same,
      (digest_loses_nothing.2 _ _ leftFits rightFits _ _ same).1⟩

end Payload

end Reply
