import Mathlib.Data.List.Basic
import Reply.Buffered
import Reply.Proofs.Digest
import Reply.Proofs.Payload.Decoding
import Reply.Proofs.Text.Ascii
import Reply.Proofs.Text.Digits

namespace Reply

/-!
# Small edits are always noticed

Flipping a truth value, exchanging one ASCII character of a text or changing an
integer within one octet edits a single octet of the canonical octets, however
deep in the payload it happens.  A single edited octet changes the low half of
the digest, so it changes the tag, and a client that holds the old tag is never
told that nothing was modified.
-/

/-! ## Tags and the low half of the digest -/

/-- The low eight hexadecimal places are the low half of a word. -/
theorem Hex.toNat_low_eight (word : UInt64) :
    (Hex.low 8 word).toNat = word.toUInt32.toNat := by
  have low := Hex.toNat_low 8 word
  rw [if_pos (by decide)] at low
  exact low.trans word.toNat_toUInt32.symm

/-- Digests with the same tag agree in their low halves. -/
theorem Tag.toUInt32_eq_of_ofDigest_eq
    {left right : UInt64}
    (same : Tag.ofDigest left = Tag.ofDigest right) :
    left.toUInt32 = right.toUInt32 := by
  have quoted := String.ofList_injective same
  have digits :=
    List.append_cancel_right (List.cons.inj quoted).2
  have values := congrArg UInt64.toNat (Hex.low_eq_of_digits_eq digits)
  rw [Hex.toNat_low_eight, Hex.toNat_low_eight] at values
  exact UInt32.toNat.inj values

namespace Payload

/-- The tag of a payload with content is that of its digest. -/
theorem tag?_of_content
    {payload : Payload}
    (content : payload.isEmpty = false) :
    payload.tag? = some (Tag.ofDigest payload.digest) := by
  rw [tag?, content]
  rfl

end Payload

/-! ## Octets of edited texts -/

/-- Exchanging one ASCII character of a text edits one octet. -/
theorem differOnce_utf8
    (before after : List Char)
    {left right : Char}
    (leftAscii : left.val ≤ 0x7f)
    (rightAscii : right.val ≤ 0x7f)
    (different : left ≠ right) :
    DifferOnce
      (utf8 (String.ofList (before ++ left :: after)))
      (utf8 (String.ofList (before ++ right :: after))) := by
  simp only [utf8_ofList, List.flatMap_append, List.flatMap_cons,
    utf8EncodeChar_of_ascii leftAscii, utf8EncodeChar_of_ascii rightAscii]
  apply DifferOnce.append_left
  exact .here (toUInt8_ne_of_ascii leftAscii rightAscii different) _

namespace Payload

/-! ## Edits at any depth -/

/-- One small change somewhere inside a payload. -/
inductive Edit : Payload → Payload → Prop
  | flip (value : Bool) : Edit (.bool value) (.bool !value)
  | exchange
      (before after : List Char)
      {left right : Char}
      (leftAscii : left.val ≤ 0x7f)
      (rightAscii : right.val ≤ 0x7f)
      (different : left ≠ right) :
      Edit
        (.text (String.ofList (before ++ left :: after)))
        (.text (String.ofList (before ++ right :: after)))
  | shift
      {left right : Whole}
      (signs : left.isSigned = right.isSigned)
      (differ : DifferOnce (wordOctets left.word) (wordOctets right.word)) :
      Edit (.whole left) (.whole right)
  | item
      (before after : List Payload)
      {left right : Payload}
      (inside : Edit left right) :
      Edit
        (.array (before ++ left :: after))
        (.array (before ++ right :: after))
  | entry
      (before after : List (String × Payload))
      (key : String)
      {left right : Payload}
      (inside : Edit left right) :
      Edit
        (.object (before ++ (key, left) :: after))
        (.object (before ++ (key, right) :: after))

/-- Sorting by key puts an entry at one place, whatever its value is. -/
theorem exists_sortByKey_append_cons
    (before after : List (String × Payload))
    (key : String) :
    ∃ earlier later : List (String × Payload),
      ∀ value,
        sortByKey (before ++ (key, value) :: after) =
          earlier ++ (key, value) :: later := by
  let filled (value : Payload) (entry : String × Option Payload) :
      String × Payload :=
    (entry.1, entry.2.getD value)
  let held (entry : String × Payload) : String × Option Payload :=
    (entry.1, some entry.2)
  let opened := before.map held ++ (key, none) :: after.map held
  have restored (value : Payload) :
      opened.map (filled value) = before ++ (key, value) :: after := by
    simp [opened, filled, held, Function.comp_def]
  have sortedOpened (value : Payload) :
      sortByKey (before ++ (key, value) :: after) =
        (sortByKey opened).map (filled value) := by
    rw [← restored value]
    exact sortByKey_map (fun content => content.getD value) opened
  have hole : (key, none) ∈ sortByKey opened :=
    (sortByKey_perm opened).symm.subset (by simp [opened])
  obtain ⟨earlier, later, split⟩ := List.mem_iff_append.mp hole
  have others :
      (earlier ++ later).Perm (before.map held ++ after.map held) := by
    have moved : (sortByKey opened).Perm opened := sortByKey_perm opened
    rw [split] at moved
    exact
      (List.perm_middle.symm.trans (moved.trans List.perm_middle)).cons_inv
  have full :
      ∀ entry ∈ earlier ++ later, ∃ original, held original = entry := by
    intro entry member
    rcases List.mem_append.mp (others.subset member) with inBefore | inAfter
    · obtain ⟨original, -, same⟩ := List.mem_map.mp inBefore
      exact ⟨original, same⟩
    · obtain ⟨original, -, same⟩ := List.mem_map.mp inAfter
      exact ⟨original, same⟩
  have indifferent :
      ∀ entry ∈ earlier ++ later, ∀ value,
        filled value entry = filled .null entry := by
    intro entry member value
    obtain ⟨original, rfl⟩ := full entry member
    rfl
  refine ⟨earlier.map (filled .null), later.map (filled .null), ?_⟩
  intro value
  rw [sortedOpened, split, List.map_append, List.map_cons]
  have earlierSame : earlier.map (filled value) = earlier.map (filled .null) :=
    List.map_congr_left fun entry member =>
      indifferent entry (List.mem_append_left _ member) value
  have laterSame : later.map (filled value) = later.map (filled .null) :=
    List.map_congr_left fun entry member =>
      indifferent entry (List.mem_append_right _ member) value
  rw [earlierSame, laterSame]
  rfl

/-- A small edit edits one canonical octet, at whatever depth it happens. -/
theorem Edit.differOnce
    {left right : Payload}
    (edit : Edit left right) :
    DifferOnce left.encode right.encode := by
  induction edit with
  | flip value =>
      cases value with
      | false => exact .here (by decide) []
      | true => exact .here (by decide) []
  | exchange before after leftAscii rightAscii different =>
      have octets :=
        differOnce_utf8 before after leftAscii rightAscii different
      have lengths := octets.length_eq
      simp only [encode, sized, lengths]
      exact .later _ (octets.append_left _)
  | shift signs differ =>
      simp only [encode, Whole.encode, signs]
      exact .later _ differ
  | item before after inside inductionHypothesis =>
      simp only [encode_array, List.length_append, List.length_cons,
        List.flatMap_append, List.flatMap_cons]
      exact
        .later _
          (((inductionHypothesis.append_right _).append_left _).append_left _)
  | entry before after key inside inductionHypothesis =>
      obtain ⟨earlier, later, sorted⟩ :=
        exists_sortByKey_append_cons before after key
      simp only [encode_object, List.length_append, List.length_cons, sorted,
        List.flatMap_append, List.flatMap_cons, encodeEntry, List.append_assoc]
      exact
        .later _
          (.append_left _
            (.append_left _
              (.append_left _ (inductionHypothesis.append_right _))))

/-- Both sides of a small edit have content. -/
theorem Edit.isEmpty_eq_false
    {left right : Payload}
    (edit : Edit left right) :
    left.isEmpty = false ∧ right.isEmpty = false := by
  cases edit with
  | flip | exchange | shift => exact ⟨rfl, rfl⟩
  | item before after inside => simp [isEmpty]
  | entry before after key inside => simp [isEmpty]

/-- Payloads with content whose octets differ once have other tags. -/
theorem tag_ne_of_differOnce
    {left right : Payload}
    (differ : DifferOnce left.encode right.encode) :
    Tag.ofDigest left.digest ≠ Tag.ofDigest right.digest := by
  intro same
  have halves := Tag.toUInt32_eq_of_ofDigest_eq same
  rw [digest, digest, feed_eq_absorbAll, feed_eq_absorbAll] at halves
  exact Digest.toUInt32_absorbAll_ne differ Digest.start halves

end Payload

/-- Putting in a tag leaves the status alone. -/
theorem Buffered.status_withTag
    {η : Type}
    (reply : Buffered η)
    (tag : String) :
    (reply.withTag tag).message.status = reply.message.status := by
  unfold withTag
  split <;> rfl

/-- A client whose tag is not the reply's is not told that nothing was modified. -/
theorem Buffered.revalidate_of_ne
    {η : Type}
    {reply : Buffered η}
    (different : reply.expected ≠ reply.tag?) :
    reply.revalidate.value.message.status = reply.message.status ∧
      reply.revalidate.notes = [] := by
  unfold revalidate
  cases current : reply.tag? with
  | none => exact ⟨rfl, rfl⟩
  | some tag =>
      have other : reply.expected ≠ some tag := by
        rwa [current] at different
      simp only [if_neg other]
      exact ⟨reply.status_withTag tag, rfl⟩

namespace Payload

/--
Payloads with content whose canonical octets have one length and differ at one
place have other digests and other tags.  In particular a client that holds the
tag of a payload is never answered 304 after a small edit of it.
-/
theorem edit_changes_tag :
    (∀ left right : Payload,
      left.isEmpty = false →
      right.isEmpty = false →
      left.encode.length = right.encode.length →
      (∃! place : Nat, left.encode[place]? ≠ right.encode[place]?) →
      left.digest ≠ right.digest ∧ left.tag? ≠ right.tag?) ∧
    (∀ left right : Payload,
      Edit left right →
      ∃ tag,
        left.tag? = some tag ∧
          ∀ {η : Type} (reply : Buffered η),
            reply.payload = right →
            reply.expected = some tag →
            reply.revalidate.value.message.status = reply.message.status ∧
              reply.revalidate.notes = []) := by
  constructor
  · intro left right leftContent rightContent lengths place
    have tags := tag_ne_of_differOnce (.of_existsUnique lengths place)
    constructor
    · intro same
      exact tags (congrArg Tag.ofDigest same)
    · rw [tag?_of_content leftContent, tag?_of_content rightContent]
      intro same
      exact tags (Option.some.inj same)
  · intro left right edit
    obtain ⟨leftContent, rightContent⟩ := edit.isEmpty_eq_false
    refine ⟨_, tag?_of_content leftContent, ?_⟩
    intro η reply holds expected
    apply Buffered.revalidate_of_ne
    rw [expected, Buffered.tag?, holds, tag?_of_content rightContent]
    split
    · intro same
      exact tag_ne_of_differOnce edit.differOnce (Option.some.inj same)
    · simp

/-- A flipped truth value and an exchanged character two levels down are noticed. -/
theorem edit_changes_tag_flip_and_exchange :
    ((array [bool false]).encode.length = (array [bool true]).encode.length ∧
      (∃! place : Nat,
        (array [bool false]).encode[place]? ≠
          (array [bool true]).encode[place]?) ∧
      (array [bool false]).digest ≠ (array [bool true]).digest ∧
      (array [bool false]).tag? ≠ (array [bool true]).tag?) ∧
    Edit
      (object [("k", array [null, text (String.ofList ['o', 'n'])])])
      (object [("k", array [null, text (String.ofList ['o', 'f'])])]) ∧
    ∃ tag,
      (object [("k", array [null, text (String.ofList ['o', 'n'])])]).tag? =
          some tag ∧
        ∀ {η : Type} (reply : Buffered η),
          reply.payload =
            object [("k", array [null, text (String.ofList ['o', 'f'])])] →
          reply.expected = some tag →
          reply.revalidate.value.message.status = reply.message.status ∧
            reply.revalidate.notes = [] := by
  have lengths :
      (array [bool false]).encode.length = (array [bool true]).encode.length :=
    rfl
  have single :
      ∃! place : Nat,
        (array [bool false]).encode[place]? ≠
          (array [bool true]).encode[place]? := by
    refine ⟨9, by decide, ?_⟩
    intro place different
    by_contra other
    have elsewhere :
        ∀ place : Fin 10,
          place.val ≠ 9 →
          (array [bool false]).encode[place.val]? =
            (array [bool true]).encode[place.val]? := by
      decide
    by_cases inside : place < 10
    · exact different (elsewhere ⟨place, inside⟩ other)
    · have beyond : 10 ≤ place := Nat.le_of_not_lt inside
      apply different
      rw [List.getElem?_eq_none beyond, List.getElem?_eq_none beyond]
  have edit :
      Edit
        (object [("k", array [null, text (String.ofList ['o', 'n'])])])
        (object [("k", array [null, text (String.ofList ['o', 'f'])])]) :=
    .entry [] [] "k"
      (.item [null] []
        (.exchange ['o'] [] (by decide) (by decide) (by decide)))
  exact
    ⟨⟨lengths, single, edit_changes_tag.1 _ _ rfl rfl lengths single⟩,
      edit, edit_changes_tag.2 _ _ edit⟩

end Payload

end Reply
