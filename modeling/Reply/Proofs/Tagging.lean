import Reply.Proofs.Payload.Edit
import Reply.Proofs.Registry

namespace Reply

/-!
# Tags in the header section

A tag is visible ASCII, so it can stand in the header section and reads back from
there.  Finalizing and revalidating put the same tag there, the one of the
content, and change no other field.  A reply that revalidating turns into 304 says
nothing of its content but the tag, whatever is done to it before it is sent.
-/

/-! ## Tags as field values -/

namespace Tag

theorem isVisible_of_mem
    {digest : UInt64}
    {character : Char}
    (member : character ∈ '"' :: (Hex.digits 8 digest ++ ['"'])) :
    IsVisible character := by
  have quote : IsVisible '"' := by
    unfold IsVisible
    decide
  rcases List.mem_cons.mp member with first | later
  · rw [first]
    exact quote
  · rcases List.mem_append.mp later with digit | last
    · rcases Hex.isDigit_of_mem_digits digit with
        ⟨lower, upper⟩ | ⟨lower, upper⟩
      · exact
          ⟨UInt32.le_trans (by decide) lower, UInt32.lt_of_le_of_lt upper (by decide)⟩
      · exact
          ⟨UInt32.le_trans (by decide) lower, UInt32.lt_of_le_of_lt upper (by decide)⟩
    · rw [List.mem_singleton.mp last]
      exact quote

/-- A tag may stand in the header section. -/
theorem ofText?_ofDigest (digest : UInt64) :
    Field.Value.ofText? (ofDigest digest) = some ⟨utf8 (ofDigest digest)⟩ :=
  Field.Value.ofText?_of_visible fun _ => isVisible_of_mem

/-- A tag reads back from the header section. -/
theorem text?_ofDigest (digest : UInt64) :
    (Field.Value.mk (utf8 (ofDigest digest))).text? = some (ofDigest digest) :=
  visibleText?_utf8 fun _ => isVisible_of_mem

/-- Digests have the same tag if and only if their low halves are the same. -/
theorem ofDigest_eq_iff {left right : UInt64} :
    ofDigest left = ofDigest right ↔ left.toUInt32 = right.toUInt32 := by
  constructor
  · exact toUInt32_eq_of_ofDigest_eq
  · intro halves
    have low : Hex.low 8 left = Hex.low 8 right := by
      apply UInt64.toNat.inj
      rw [Hex.toNat_low_eight, Hex.toNat_low_eight, halves]
    rw [ofDigest, ofDigest, Hex.digits, Hex.digits, low]

end Tag

namespace Headers

/-- A field with a single tag for its value reads as the tag. -/
theorem text?_etag
    {headers : Headers}
    {digest : UInt64}
    (single : headers.values .etag = [⟨utf8 (Tag.ofDigest digest)⟩]) :
    headers.text? "etag" = some (Tag.ofDigest digest) := by
  have named : Field.Name.ofText? "etag" = some .etag := by cbv
  rw [text?, named, Option.bind_eq_bind, Option.bind_some, single]
  exact Tag.text?_ofDigest digest

end Headers

namespace Buffered

variable {η : Type} {reply : Buffered η} {tag : String}

/-! ## The tag of a reply -/

/-- A 200 reply with content has the tag of its content's digest. -/
theorem tag?_of_ok
    (ok : reply.message.status = .ok)
    (content : reply.payload.isEmpty = false) :
    reply.tag? = some (Tag.ofDigest reply.payload.digest) := by
  rw [tag?, if_pos ok, Payload.tag?_of_content content]

/-- Only a 200 reply has a tag, and that tag is one of a digest. -/
theorem ok_of_tag?
    (current : reply.tag? = some tag) :
    reply.message.status = .ok ∧ tag = Tag.ofDigest reply.payload.digest := by
  unfold tag? at current
  split at current
  · next ok =>
      unfold Payload.tag? at current
      split at current
      · contradiction
      · exact ⟨ok, (Option.some.inj current).symm⟩
  · contradiction

/-- A tag is put into the header section as the single value of its field. -/
theorem withTag_eq
    (current : reply.tag? = some tag) :
    reply.withTag tag =
      { reply with
        message :=
          { reply.message with
            headers := reply.message.headers.set .etag ⟨utf8 tag⟩ } } := by
  rw [(ok_of_tag? current).2]
  simp only [withTag, Tag.ofText?_ofDigest]

/-- Putting a tag in changes neither status nor content, so the tag stays. -/
theorem tag?_withTag (reply : Buffered η) (text : String) :
    (reply.withTag text).tag? = reply.tag? := by
  unfold withTag
  split <;> rfl

theorem withTag_withTag
    (current : reply.tag? = some tag) :
    (reply.withTag tag).withTag tag = reply.withTag tag := by
  have again : (reply.withTag tag).tag? = some tag := by
    rw [tag?_withTag, current]
  rw [withTag_eq again, withTag_eq current]
  simp only [Headers.set, Registry.put_put]

theorem values_etag_withTag
    (current : reply.tag? = some tag) :
    (reply.withTag tag).message.headers.values .etag = [⟨utf8 tag⟩] := by
  simp only [withTag_eq current, Headers.values_set, if_true]

theorem tagged_of_tag?
    (current : reply.tag? = some tag) :
    reply.tagged = reply.withTag tag := by
  simp only [tagged, current]

theorem tagged_of_none
    (untagged : reply.tag? = none) :
    reply.tagged = reply := by
  simp only [tagged, untagged]

theorem tag?_tagged (reply : Buffered η) : reply.tagged.tag? = reply.tag? := by
  unfold tagged
  split
  · exact reply.tag?_withTag _
  · rfl

/-- Attaching the tag changes nothing but its field. -/
theorem exists_headers_tagged (reply : Buffered η) :
    ∃ headers,
      reply.tagged =
          { reply with message := { reply.message with headers := headers } } ∧
        headers.remove .etag = reply.message.headers.remove .etag := by
  cases current : reply.tag? with
  | none => exact ⟨_, tagged_of_none current, rfl⟩
  | some tag =>
      exact
        ⟨_, (tagged_of_tag? current).trans (withTag_eq current),
          Registry.erase_put ..⟩

/-- Finalizing a reply with a tag leaves it that tag in the header section. -/
theorem values_etag_finalize
    (current : reply.tag? = some tag) :
    reply.finalize.value.1.message.headers.values .etag = [⟨utf8 tag⟩] := by
  have single := values_etag_withTag current
  rw [← tagged_of_tag? current] at single
  unfold finalize
  dsimp only
  split <;> exact single

/-- Finalizing changes neither status nor content, so the tag stays. -/
theorem tag?_finalize (reply : Buffered η) :
    reply.finalize.value.1.tag? = reply.tag? := by
  rw [← reply.tag?_tagged]
  unfold finalize
  dsimp only
  split <;> rfl

/-! ## Revalidating -/

/-- A client that holds the reply's tag is told that nothing was modified. -/
theorem revalidate_of_held
    (current : reply.tag? = some tag)
    (held : reply.expected = some tag) :
    reply.revalidate =
      ⟨(reply.withTag tag).asNotModified,
        [.logged .debug "Payload not modified", .counted .notModified]⟩ := by
  simp only [revalidate, current, held, if_true]

/-- Any other client gets the tag, and nothing else changes. -/
theorem revalidate_of_not_held
    (current : reply.tag? = some tag)
    (other : reply.expected ≠ some tag) :
    reply.revalidate = .silent (reply.withTag tag) := by
  simp only [revalidate, current, other, if_false]

theorem revalidate_of_none
    (untagged : reply.tag? = none) :
    reply.revalidate = .silent reply := by
  simp only [revalidate, untagged]

theorem values_etag_revalidate
    (current : reply.tag? = some tag) :
    reply.revalidate.value.message.headers.values .etag = [⟨utf8 tag⟩] := by
  have single := values_etag_withTag current
  by_cases held : reply.expected = some tag
  · rw [revalidate_of_held current held]
    simp only [asNotModified, Headers.values_remove, single]
    rfl
  · rw [revalidate_of_not_held current held]
    exact single

/-- Revalidating once more changes nothing and notes nothing. -/
theorem revalidate_revalidate (reply : Buffered η) :
    reply.revalidate.value.revalidate = .silent reply.revalidate.value := by
  cases current : reply.tag? with
  | none =>
      rw [revalidate_of_none current]
      exact revalidate_of_none current
  | some tag =>
      by_cases held : reply.expected = some tag
      · rw [revalidate_of_held current held]
        exact revalidate_of_none rfl
      · have again : (reply.withTag tag).tag? = some tag := by
          rw [tag?_withTag, current]
        have kept : (reply.withTag tag).expected = reply.expected := by
          rw [withTag_eq current]
        rw [revalidate_of_not_held current held]
        refine (revalidate_of_not_held again (kept ▸ held)).trans ?_
        rw [withTag_withTag current]
        rfl

/-- Revalidating attaches the tag, so that it need not be attached again. -/
theorem tagged_revalidate (reply : Buffered η) :
    reply.revalidate.value.tagged = reply.revalidate.value := by
  cases current : reply.tag? with
  | none =>
      rw [revalidate_of_none current]
      exact tagged_of_none current
  | some tag =>
      by_cases held : reply.expected = some tag
      · rw [revalidate_of_held current held]
        exact tagged_of_none rfl
      · have again : (reply.withTag tag).tag? = some tag := by
          rw [tag?_withTag, current]
        rw [revalidate_of_not_held current held]
        exact (tagged_of_tag? again).trans (withTag_withTag current)

/-! ## Replies that say that nothing was modified -/

/-- A 304 reply that names a tag and has neither content nor fields about it. -/
structure NotModified (tag : String) (reply : Buffered η) : Prop where
  status : reply.message.status = .notModified
  payload : reply.payload = .null
  body : reply.message.body = ""
  contentType : reply.message.headers.get? .contentType = none
  contentLength : reply.message.headers.get? .contentLength = none
  etag : reply.message.headers.values .etag = [⟨utf8 tag⟩]

theorem notModified_revalidate
    (current : reply.tag? = some tag)
    (held : reply.expected = some tag) :
    reply.revalidate.value.NotModified tag := by
  have single := values_etag_revalidate current
  rw [revalidate_of_held current held] at single ⊢
  refine ⟨rfl, rfl, rfl, ?_, ?_, single⟩
  · simp only [asNotModified, Headers.remove, Registry.get?_erase, if_true,
      ite_self]
  · simp only [asNotModified, Headers.remove, Registry.get?_erase, if_true]

namespace NotModified

theorem tag?_eq_none (answered : reply.NotModified tag) : reply.tag? = none := by
  have other : reply.message.status ≠ .ok := by
    rw [answered.status]
    decide
  rw [tag?, if_neg other]

theorem finalize (answered : reply.NotModified tag) :
    reply.finalize.value.1.NotModified tag := by
  unfold Buffered.finalize
  rw [tagged_of_none answered.tag?_eq_none]
  dsimp only
  split <;>
    exact
      ⟨answered.status, answered.payload, answered.body,
        answered.contentType, answered.contentLength, answered.etag⟩

/-- What is sent is the status, the tag and the fields not about content. -/
theorem deliver_eq (answered : reply.NotModified tag) :
    reply.deliver =
      .silent
        { reply.message with
          headers :=
            (reply.message.headers.remove .transferEncoding).remove
              .contentLength } := by
  have forbids : reply.message.status.forbidsBody = true := by
    rw [answered.status]
    rfl
  have unrendered : reply.render = reply := by
    rw [render, wantsRendering, forbids]
    simp
  have fits : reply.message.frameFailure? = none := by
    simp [Message.frameFailure?, answered.body, Body.size]
  rw [deliver, unrendered, fits]
  simp only [Message.frame, forbids, if_true]

end NotModified

end Buffered

end Reply
