import Reply.CommandLine.Demonstration
import Reply.Proofs.Delivery
import Reply.Proofs.Legality
import Reply.Proofs.Session.Content

namespace Reply

/-!
# What the stages make of the reply

The producer refuses a code that is out of range.  With any other code the reply
passes every stage whatever the client holds: the guard lets it go with its handler
due, and it reaches the transport without a body and with content that is rendered
only where a body is allowed, so that framing has nothing to refuse.
-/

/-- A status is 200 if its code is. -/
theorem Status.eq_ok_iff {status : Status} :
    status = .ok ↔ status.code = 200 := by
  rcases status with ⟨code, lower, upper⟩
  simp [ok]

namespace Demonstration

/-! ## The message that is served -/

theorem isEmpty_content : content.isEmpty = false :=
  rfl

/-- The content has a tag. -/
theorem tag?_content :
    content.tag? = some (Tag.ofDigest content.digest) :=
  Payload.tag?_of_content isEmpty_content

/-- The status that a client is answered with who holds a tag or none. -/
def answered (status : Status) (held : Option String) : Status :=
  if status = .ok ∧ held = content.tag? then .notModified else status

/-- The header section that names the tag, which only a 200 reply does. -/
def tagging (status : Status) : Headers :=
  if status = .ok then
    Headers.set .empty .etag ⟨utf8 (Tag.ofDigest content.digest)⟩
  else
    .empty

/-- The message that is served, with the content for its body if one is allowed. -/
def answer (status : Status) (held : Option String) : Message String where
  status := answered status held
  version := .http11
  headers :=
    if (answered status held).Bodiless then
      tagging status
    else
      ((tagging status).set .contentType .applicationJson).set .contentLength
        (.ofNat content.toJson.utf8ByteSize)
  body := if (answered status held).Bodiless then "" else content.toJson

/-- The fields of the message that is served, in order. -/
theorem entries_answer (status : Status) (held : Option String) :
    (answer status held).headers.entries =
      (if status = .ok then
        [(.etag, [⟨utf8 (Tag.ofDigest content.digest)⟩])]
      else
        []) ++
      (if (answered status held).Bodiless then
        []
      else
        [(.contentType, [.applicationJson]),
          (.contentLength, [.ofNat content.toJson.utf8ByteSize])]) := by
  rw [answer, tagging]
  split <;> split <;> rfl

/-- The message that is served has a well-formed header section. -/
theorem wellFormed_answer (status : Status) (held : Option String) :
    (answer status held).headers.WellFormed := by
  have tagged : Headers.Edited .empty (tagging status) := by
    unfold tagging
    split
    · exact
        .set .refl (by decide)
          (Field.Value.legal_of_ofOctets? (Tag.ofText?_ofDigest _))
    · exact .refl
  have edited : Headers.Edited .empty (answer status held).headers := by
    rw [answer]
    split
    · exact tagged
    · exact
        .set
          (.set tagged (by decide) Field.Value.legal_applicationJson)
          (by decide) (Field.Value.legal_ofNat _)
  exact edited.wellFormed Headers.wellFormed_empty

/-! ## The producer -/

/-- The reply as the producer sends it on. -/
def filled (status : Status) : Buffered Courier where
  id := 0
  message := { Message.around "" with status := status }
  payload := content
  completed := false
  expected := none
  handler := some .courier
  probe := some ⟨0, connection⟩

/-- The producer refuses a code that is out of range and nothing else. -/
theorem produce_eq (code : Nat) :
    produce .empty code =
      match Status.ofCode? code with
      | some status => .ok (some (filled status))
      | none => .error (.invalidStatus code) := by
  have alive : Probe.isAlive .empty pending.probe = true := rfl
  rw [produce, if_pos alive, Buffered.setStatus, Message.setStatus]
  cases Status.ofCode? code <;> rfl

/-! ## The guarded stage -/

/-- The reply as it is asked for. -/
def asked (status : Status) (held : Option String) : Buffered Courier :=
  { filled status with expected := held }

/-- The reply as it answers the conditional request. -/
def revalidated (status : Status) (held : Option String) : Buffered Courier :=
  { asked status held with
    message :=
      { Message.around "" with
        status := answered status held
        headers := tagging status }
    payload := if status = .ok ∧ held = content.tag? then .null else content }

theorem revalidate_asked (status : Status) (held : Option String) :
    (asked status held).revalidate.value = revalidated status held := by
  by_cases ok : status = .ok
  case neg =>
    have untagged : (asked status held).tag? = none := if_neg ok
    rw [Buffered.revalidate_of_none untagged]
    simp only [Noted.silent, revalidated, answered, tagging, ok, false_and,
      if_false]
    rfl
  case pos =>
    subst ok
    have current :
        (asked .ok held).tag? = some (Tag.ofDigest content.digest) :=
      Buffered.tag?_of_ok rfl isEmpty_content
    by_cases same : held = content.tag?
    · have known :
          (asked .ok held).expected = some (Tag.ofDigest content.digest) :=
        same.trans tag?_content
      rw [Buffered.revalidate_of_held current known, Buffered.withTag_eq current]
      simp only [Buffered.asNotModified, revalidated, answered, tagging, same,
        and_self, if_true]
      rfl
    · have unknown :
          (asked .ok held).expected ≠ some (Tag.ofDigest content.digest) :=
        fun known => same (known.trans tag?_content.symm)
      rw [Buffered.revalidate_of_not_held current unknown,
        Buffered.withTag_eq current]
      simp only [Noted.silent, revalidated, answered, tagging, same, and_false,
        if_false, if_true]
      rfl

/-- The reply as the transport gets it. -/
def concluded (status : Status) (held : Option String) : Buffered Courier :=
  { revalidated status held with completed := true, handler := none }

/-- The guard lets the reply go with its handler due, whatever the client holds. -/
theorem conclude_eq
    (status : Status)
    (held : Option String) :
    conclude (filled status) held = some (concluded status held) := by
  have asks :
      conclude (filled status) held =
        (asked status held).revalidate.value.finalize.value.2.map
          (Courier.carry (asked status held).revalidate.value.finalize.value.1) := by
    cases held <;> rfl
  rw [asks, Buffered.finalize_value, Buffered.tagged_revalidate,
    revalidate_asked]
  rfl

/-! ## The transport -/

/-- There is no field but the tag. -/
theorem get?_tagging_of_ne
    (status : Status)
    {name : Field.Name}
    (other : name ≠ .etag) :
    (tagging status).get? name = none := by
  unfold tagging
  split
  · rw [Headers.get?_set, if_neg other]
    rfl
  · rfl

theorem remove_tagging
    (status : Status)
    {name : Field.Name}
    (other : name ≠ .etag) :
    (tagging status).remove name = tagging status :=
  Registry.erase_of_get?_eq_none (get?_tagging_of_ne status other)

theorem remove_typed (status : Status) :
    ((tagging status).set .contentType .applicationJson).remove
        .transferEncoding =
      (tagging status).set .contentType .applicationJson := by
  apply Registry.erase_of_get?_eq_none
  rw [Headers.get?_set, if_neg (by decide),
    get?_tagging_of_ne status (by decide)]

/-- No media type is named yet. -/
theorem withJsonType_tagging (status : Status) :
    Buffered.withJsonType (tagging status) =
      (tagging status).set .contentType .applicationJson := by
  unfold tagging
  split <;> rfl

/-- Framing has nothing to refuse. -/
theorem transport_eq
    (status : Status)
    (held : Option String) :
    transport (concluded status held) = .ok (answer status held) := by
  have rendered := (concluded status held).message_render
  by_cases bodiless : (answered status held).Bodiless
  case pos =>
    have unrendered : ¬(concluded status held).Renders :=
      fun renders => renders.2.2 bodiless
    have fits : (concluded status held).message.frameFailure? = none := by
      simp [Message.frameFailure?, concluded, revalidated, Message.around,
        Body.size]
    rw [if_neg unrendered] at rendered
    simp only [transport, rendered, fits, Message.frame_eq, answer]
    simp only [concluded, revalidated, Message.around, bodiless, if_true]
    rw [remove_tagging status (by decide), remove_tagging status (by decide)]
  case neg =>
    -- The content is dropped only with a 304, which comes without a body.
    have content : (concluded status held).payload = content := by
      refine if_neg ?_
      intro same
      apply bodiless
      rw [answered, if_pos same]
      decide
    have renders : (concluded status held).Renders :=
      ⟨rfl, content ▸ isEmpty_content, bodiless⟩
    have allowed : (answered status held).forbidsBody = false :=
      Bool.eq_false_iff.mpr (mt Status.forbidsBody_iff.mp bodiless)
    rw [if_pos renders] at rendered
    simp only [transport, rendered, Message.frameFailure?, Message.frame_eq,
      answer, content]
    simp only [concluded, revalidated, Message.around, bodiless, allowed,
      Bool.false_and, Bool.false_eq_true, if_false, withJsonType_tagging]
    rw [remove_typed]
    rfl

/-- Nothing but the code decides whether a message is served. -/
theorem serve_eq
    (code : Nat)
    (held : Option String) :
    serve code held =
      match Status.ofCode? code with
      | some status => .ok (answer status held)
      | none => .error (.failed (.invalidStatus code)) := by
  rw [serve, produce_eq]
  cases Status.ofCode? code with
  | none => rfl
  | some status =>
      simp only [Option.bind_some, conclude_eq, transport_eq]
      rfl

end Demonstration

end Reply
