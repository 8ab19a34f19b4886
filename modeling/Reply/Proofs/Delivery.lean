import Reply.Proofs.Agreement
import Reply.Proofs.Tagging

namespace Reply

/-!
# Delivered messages

A reply can be handed to the transport in any state: with a body or only content,
with a status that allows no body, with fields about the body that are out of date.
What the transport gets is framed all the same: the length that it announces is that
of the body it sends, so the next message on the connection is found where it begins.
-/

/-! ## Statuses without a body -/

namespace Status

/-- A status that never comes with a body: an interim one, 204 or 304. -/
def Bodiless (status : Status) : Prop :=
  status.code < 200 ∨ status.code = 204 ∨ status.code = 304

instance (status : Status) : Decidable status.Bodiless :=
  inferInstanceAs (Decidable (_ ∨ _ ∨ _))

theorem forbidsBody_iff {status : Status} :
    status.forbidsBody = true ↔ status.Bodiless := by
  simp only [forbidsBody, Bodiless, Bool.or_eq_true, decide_eq_true_eq, or_assoc]

end Status

/-- Framing leaves no transfer encoding, and a length only where there is a body. -/
theorem Message.frame_eq
    {β : Type} [Body β]
    (message : Message β) :
    message.frame =
      { message with
        headers :=
          if message.status.Bodiless then
            (message.headers.remove .transferEncoding).remove .contentLength
          else
            (message.headers.remove .transferEncoding).set .contentLength
              (.ofNat (Body.size message.body)) } := by
  simp only [frame, Status.forbidsBody_iff]

namespace Buffered

variable {η : Type}

/-! ## Rendering on the way out -/

/-- Whether the content becomes the body on the way out. -/
def Renders (reply : Buffered η) : Prop :=
  reply.message.body = "" ∧
    reply.payload.isEmpty = false ∧
    ¬reply.message.status.Bodiless

instance (reply : Buffered η) : Decidable reply.Renders :=
  inferInstanceAs (Decidable (_ ∧ _ ∧ _))

theorem wantsRendering_iff {reply : Buffered η} :
    reply.wantsRendering = true ↔ reply.Renders := by
  rw [Renders, ← Status.forbidsBody_iff, Bool.not_eq_true]
  simp only [wantsRendering, Bool.and_eq_true, Bool.not_eq_true',
    String.isEmpty_iff]
  exact and_assoc

/-- The content becomes the body together with its media type. -/
theorem message_render (reply : Buffered η) :
    reply.render.message =
      if reply.Renders then
        { reply.message with
          body := reply.payload.toJson
          headers := withJsonType reply.message.headers }
      else
        reply.message := by
  by_cases renders : reply.Renders
  · rw [if_pos renders, render, if_pos (wantsRendering_iff.mpr renders)]
  · rw [if_neg renders, render, if_neg (mt wantsRendering_iff.mp renders)]

/-- A media type is named for a body made from the content, if none was named. -/
theorem headers_render (reply : Buffered η) :
    reply.render.message.headers =
      if reply.Renders ∧ reply.message.headers.get? .contentType = none then
        reply.message.headers.set .contentType .applicationJson
      else
        reply.message.headers := by
  rw [message_render]
  by_cases renders : reply.Renders
  · simp only [renders, if_true, true_and, withJsonType, Registry.contains,
      Option.isSome_iff_ne_none, ite_not]
  · rw [if_neg renders, if_neg fun both => renders both.1]

/-- Where a body is allowed, it is the one that is there or made from the content. -/
theorem body_render
    {reply : Buffered η}
    (bodied : ¬reply.message.status.Bodiless) :
    reply.render.message.body =
      if reply.message.body ≠ "" then
        reply.message.body
      else if reply.payload.isEmpty then
        ""
      else
        reply.payload.toJson := by
  rw [message_render]
  by_cases empty : reply.message.body = ""
  · cases content : reply.payload.isEmpty with
    | true => simp [Renders, empty, content]
    | false => simp [Renders, empty, content, bodied]
  · simp [Renders, empty]

/-! ## The two ways out -/

section

variable {reply : Buffered η}

/-- A body that is not allowed is neither made nor sent. -/
theorem deliver_of_bodiless
    (bodiless : reply.message.status.Bodiless) :
    reply.deliver =
      ⟨{ reply.message with
          headers :=
            (reply.message.headers.remove .transferEncoding).remove
              .contentLength
          body := "" },
        if reply.message.body = "" then
          []
        else
          [.logged .warn "Discarding body"]⟩ := by
  have forbids := Status.forbidsBody_iff.mpr bodiless
  have unrendered : reply.render = reply := by
    rw [render, if_neg]
    exact fun wanted => (wantsRendering_iff.mp wanted).2.2 bodiless
  simp only [deliver, unrendered, Message.frameFailure?, forbids,
    Bool.true_and, decide_eq_true_eq, Message.frame, if_true]
  by_cases empty : reply.message.body = ""
  · simp only [empty, Body.size, String.utf8ByteSize_empty, Nat.lt_irrefl,
      if_false, if_true]
    rfl
  · have present : 0 < Body.size reply.message.body := by
      apply Nat.pos_of_ne_zero
      intro zero
      exact empty (String.utf8ByteSize_eq_zero_iff.mp zero)
    simp only [if_pos present, if_neg empty, Headers.remove,
      Registry.erase_erase]

/-- Where a body is allowed, it goes out with its length. -/
theorem deliver_of_not_bodiless
    (bodied : ¬reply.message.status.Bodiless) :
    reply.deliver =
      .silent
        { reply.render.message with
          headers :=
            (reply.render.message.headers.remove .transferEncoding).set
              .contentLength (.ofNat reply.render.message.body.utf8ByteSize) } := by
  have same : reply.render.message.status = reply.message.status := by
    unfold render
    split <;> rfl
  have allowed : reply.render.message.status.forbidsBody = false := by
    rw [same]
    exact Bool.eq_false_iff.mpr (mt Status.forbidsBody_iff.mp bodied)
  simp only [deliver, Message.frameFailure?, Message.frame, allowed,
    Bool.false_and, Bool.false_eq_true, if_false]
  rfl

end

end Buffered

/--
A reply in any state is delivered with its status and version, without a transfer
encoding, and so that its end can be found.  Where a body is allowed, there is one
content length, the decimal number of octets of the body that is sent, which is the
reply's body or else the text of its content; where none is allowed, there is no body
and no content length.  A media type is named only for a body made from the content
and only where none was named.  Every other field has the values that it had, in their
order.  Nothing goes wrong on the way but that a body is discarded that is not allowed.
-/
theorem delivery_framed
    {η : Type}
    (reply : Buffered η) :
    let former := reply.message
    let sent := reply.deliver.value
    sent.status = former.status ∧
      sent.version = former.version ∧
      sent.headers.get? .transferEncoding = none ∧
      (former.status.Bodiless →
        sent.body = "" ∧ sent.headers.get? .contentLength = none) ∧
      (¬former.status.Bodiless →
        sent.headers.get? .contentLength =
            some [⟨utf8 (toString (utf8 sent.body).length)⟩] ∧
          sent.body =
            if former.body ≠ "" then
              former.body
            else if reply.payload.isEmpty then
              ""
            else
              reply.payload.toJson) ∧
      sent.headers.get? .contentType =
        (if reply.Renders ∧ former.headers.get? .contentType = none then
          some [⟨utf8 "application/json"⟩]
        else
          former.headers.get? .contentType) ∧
      sent.headers.AgreeBeside
        [.transferEncoding, .contentLength, .contentType] former.headers ∧
      reply.deliver.notes =
        if former.status.Bodiless ∧ former.body ≠ "" then
          [.logged .warn "Discarding body"]
        else
          [] := by
  intro former sent
  by_cases bodiless : former.status.Bodiless
  case pos =>
    have unrendered : ¬reply.Renders := fun renders => renders.2.2 bodiless
    simp only [sent, Buffered.deliver_of_bodiless bodiless]
    refine
      ⟨rfl, rfl, ?coding, fun _ => ⟨trivial, ?length⟩,
        fun bodied => absurd bodiless bodied, ?type, ?others, ?notes⟩
    case coding => simp +decide only [Headers.get?_remove, if_true, if_false]
    case length => simp only [Headers.get?_remove, if_true]
    case type =>
      rw [if_neg fun both => unrendered both.1]
      simp +decide only [Headers.get?_remove, if_false, former]
    case others =>
      exact
        ((Headers.agreeBeside_refl _).remove (by decide)).remove (by decide)
    case notes =>
      simp only [bodiless, true_and, ite_not, former]
  case neg =>
    have length :
        ∀ text : String,
          Field.Value.ofNat text.utf8ByteSize =
            ⟨utf8 (toString (utf8 text).length)⟩ :=
      fun _ => rfl
    simp only [sent, Buffered.deliver_of_not_bodiless bodiless, Noted.silent,
      length]
    refine
      ⟨?status, ?version, ?coding, fun bodied => absurd bodied bodiless,
        fun _ => ⟨?length, ?body⟩, ?type, ?others, ?notes⟩
    case status =>
      rw [reply.message_render]
      split <;> rfl
    case version =>
      rw [reply.message_render]
      split <;> rfl
    case coding =>
      simp +decide only [Headers.get?_set, Headers.get?_remove, if_true, if_false]
    case length => simp only [Headers.get?_set, if_true]
    case body => exact Buffered.body_render bodiless
    case type =>
      simp +decide only [Headers.get?_set, Headers.get?_remove, if_false]
      rw [reply.headers_render]
      split
      · rw [Headers.get?_set, if_pos rfl]
        rfl
      · rfl
    case others =>
      refine .set (.remove ?_ (by decide)) (by decide) _
      rw [reply.headers_render]
      split
      · exact (Headers.agreeBeside_refl _).set (by decide) _
      · exact Headers.agreeBeside_refl _
    case notes =>
      rw [if_neg fun both => bodiless both.1]

/--
Two lengths and a transfer encoding that are out of date give way to the length of the
text of the content, and under 304 to none; the body that was there is not sent.  Two
fields behind the transfer encoding keep their values, one of them two in their order.
-/
theorem delivery_framed_stale_fields :
    let stale : Headers :=
      ⟨[(.contentLength, [⟨utf8 "5"⟩, ⟨utf8 "7"⟩]),
          (.transferEncoding, [⟨utf8 "chunked"⟩]),
          (⟨"x-a"⟩, [⟨utf8 "1"⟩, ⟨utf8 "2"⟩]),
          (⟨"x-b"⟩, [⟨utf8 "3"⟩])],
        by decide⟩
    let rendered : Buffered Empty :=
      { Buffered.ofMessage 0 ⟨.ok, .http10, stale, ""⟩ with
        payload := .array [.bool true, .null] }
    let discarded : Buffered Empty :=
      .ofMessage 1 ⟨.notModified, .http11, stale, "former"⟩
    (¬rendered.message.status.Bodiless ∧
        rendered.deliver.value.body = "[\n  true,\n  null\n]" ∧
        rendered.deliver.value.headers.get? .contentLength =
          some [⟨utf8 "18"⟩]) ∧
      (discarded.message.status.Bodiless ∧
        discarded.deliver.value.body = "" ∧
        discarded.deliver.value.headers.get? .contentLength = none) ∧
      ∀ sent ∈ [rendered.deliver.value, discarded.deliver.value],
        sent.headers.get? .transferEncoding = none ∧
          sent.headers.get? ⟨"x-a"⟩ = some [⟨utf8 "1"⟩, ⟨utf8 "2"⟩] ∧
          sent.headers.get? ⟨"x-b"⟩ = some [⟨utf8 "3"⟩] := by
  intro stale rendered discarded
  have bodied : ¬rendered.message.status.Bodiless := by decide
  have bodiless : discarded.message.status.Bodiless := by decide
  obtain ⟨-, -, uncoded, -, framed, -, others, -⟩ := delivery_framed rendered
  obtain ⟨-, -, uncodedToo, emptied, -, -, othersToo, -⟩ :=
    delivery_framed discarded
  obtain ⟨length, body⟩ := framed bodied
  have text : rendered.deliver.value.body = "[\n  true,\n  null\n]" :=
    body.trans (by decide +kernel)
  refine ⟨⟨bodied, text, ?_⟩, ⟨bodiless, emptied bodiless⟩, ?_⟩
  · rw [length, text]
    decide +kernel
  · intro sent member
    rcases List.mem_pair.mp member with rfl | rfl
    · exact
        ⟨uncoded, others ⟨"x-a"⟩ (by decide), others ⟨"x-b"⟩ (by decide)⟩
    · exact
        ⟨uncodedToo, othersToo ⟨"x-a"⟩ (by decide),
          othersToo ⟨"x-b"⟩ (by decide)⟩

end Reply
