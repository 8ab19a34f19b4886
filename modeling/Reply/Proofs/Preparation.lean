import Reply.Proofs.Delivery
import Reply.Session.Effect

namespace Reply

/-!
# Preparing twice

A reply may be rendered and framed before it is handed off, in any order, and framing
may fail.  Handing it off does both again, so that nothing of this can be seen in what
is sent but the order in which fields were set.
-/

/-! ## Framing -/

namespace Message

variable {β : Type} [Body β]

/-- Framing a framed message changes nothing. -/
theorem frame_frame (message : Message β) :
    message.frame.frame = message.frame := by
  have uncoded : message.frame.headers.get? .transferEncoding = none := by
    simp only [frame]
    split
    · simp +decide only [Headers.get?_remove, if_true, if_false]
    · simp +decide only [Headers.get?_set, Headers.get?_remove, if_true,
        if_false]
  have kept : message.frame.headers.remove .transferEncoding = message.frame.headers :=
    Registry.erase_of_get?_eq_none uncoded
  rw [frame, kept]
  simp only [frame]
  split
  · simp only [Headers.remove, Registry.erase_erase]
  · simp only [Headers.set, Registry.put_put]

/-- Framing says nothing under any other name. -/
theorem get?_frame_of_ne
    (message : Message β)
    {name : Field.Name}
    (notCoding : name ≠ .transferEncoding)
    (notLength : name ≠ .contentLength) :
    message.frame.headers.get? name = message.headers.get? name := by
  simp only [frame_eq]
  split
  · rw [Headers.get?_remove, if_neg notLength, Headers.get?_remove,
      if_neg notCoding]
  · rw [Headers.get?_set, if_neg notLength, Headers.get?_remove,
      if_neg notCoding]

end Message

namespace Buffered

variable {η : Type}

/-! ## Rendering -/

/-- A media type is named already once it has been named. -/
theorem withJsonType_withJsonType (headers : Headers) :
    withJsonType (withJsonType headers) = withJsonType headers := by
  have named : (withJsonType headers).contains .contentType = true := by
    unfold withJsonType
    split
    · assumption
    · rw [Registry.contains, Headers.get?_set, if_pos rfl]
      rfl
  rw [withJsonType, if_pos named]

/-- Rendering a rendered reply changes nothing. -/
theorem render_render (reply : Buffered η) :
    reply.render.render = reply.render := by
  by_cases wanted : reply.wantsRendering = true
  · have rendered :
        reply.render =
          { reply with
            message :=
              { reply.message with
                body := reply.payload.toJson
                headers := withJsonType reply.message.headers } } :=
      if_pos wanted
    rw [rendered, render]
    split
    · simp only [withJsonType_withJsonType]
    · rfl
  · have unrendered : reply.render = reply := if_neg wanted
    rw [unrendered, unrendered]

/-- A framed reply renders to the same message but for header fields. -/
theorem message_render_frame (reply : Buffered η) :
    reply.frame.render.message =
      { reply.render.message with
        headers := reply.frame.render.message.headers } := by
  have same : reply.frame.wantsRendering = reply.wantsRendering := rfl
  simp only [render, same]
  split <;> rfl

/-- Those header fields are the ones of framing at most. -/
theorem get?_render_frame_of_ne
    (reply : Buffered η)
    {name : Field.Name}
    (notCoding : name ≠ .transferEncoding)
    (notLength : name ≠ .contentLength) :
    reply.frame.render.message.headers.get? name =
      reply.render.message.headers.get? name := by
  have same : reply.frame.Renders ↔ reply.Renders := Iff.rfl
  have unnamed :
      reply.frame.message.headers.get? .contentType =
        reply.message.headers.get? .contentType :=
    reply.message.get?_frame_of_ne (by decide) (by decide)
  have beside :
      reply.frame.message.headers.get? name =
        reply.message.headers.get? name :=
    reply.message.get?_frame_of_ne notCoding notLength
  simp only [headers_render, same, unnamed]
  split
  · rw [Headers.get?_set, Headers.get?_set, beside]
  · exact beside

/-! ## Handing off -/

/-- What is handed off is rendered in any case. -/
theorem deliver_render (reply : Buffered η) :
    reply.render.deliver = reply.deliver := by
  simp only [deliver, render_render]

/-- What is handed off is framed in any case. -/
theorem agrees_deliver_frame (reply : Buffered η) :
    reply.frame.deliver.value.Agrees reply.deliver.value ∧
      reply.frame.deliver.notes = reply.deliver.notes := by
  by_cases bodiless : reply.message.status.Bodiless
  · have framed : reply.frame.message.status.Bodiless := bodiless
    rw [deliver_of_bodiless bodiless, deliver_of_bodiless framed]
    refine ⟨⟨rfl, rfl, ?_, rfl⟩, rfl⟩
    intro name
    simp only [Headers.get?_remove]
    split
    · rfl
    · next notLength =>
        split
        · rfl
        · next notCoding =>
            exact reply.message.get?_frame_of_ne notCoding notLength
  · have framed : ¬reply.frame.message.status.Bodiless := bodiless
    rw [deliver_of_not_bodiless bodiless, deliver_of_not_bodiless framed,
      reply.message_render_frame]
    refine ⟨⟨rfl, rfl, ?_, rfl⟩, rfl⟩
    intro name
    simp only [Noted.silent, Headers.get?_set, Headers.get?_remove]
    split
    · rfl
    · next notLength =>
        split
        · rfl
        · next notCoding =>
            exact reply.get?_render_frame_of_ne notCoding notLength

end Buffered

/-! ## Calls beforehand -/

/-- What can be called on a reply to prepare it. -/
inductive Preparation
  | render
  | frame

/-- The step that a call is. -/
def Preparation.step : Preparation → Step
  | .render => .render
  | .frame => .frame

/-- The reply after a call, whether or not the call failed. -/
def Preparation.leave
    (session : Session)
    (reply : Response)
    (call : Preparation) :
    Response :=
  (call.step.apply session reply).reply

namespace Preparation

@[simp] theorem leave_render
    (session : Session)
    (reply : Response) :
    leave session reply .render = reply.render :=
  rfl

/-- A reply is framed also where this fails. -/
@[simp] theorem leave_frame
    (session : Session)
    (reply : Response) :
    leave session reply .frame = reply.frame := by
  simp only [leave, step, Step.apply]
  split <;> rfl

/-- A call beforehand is not seen in what is handed off. -/
theorem agrees_deliver_leave
    (session : Session)
    (reply : Response)
    (call : Preparation) :
    (leave session reply call).deliver.value.Agrees reply.deliver.value ∧
      (leave session reply call).deliver.notes = reply.deliver.notes := by
  cases call with
  | render =>
      rw [leave_render, reply.deliver_render]
      exact ⟨.refl _, rfl⟩
  | frame =>
      rw [leave_frame]
      exact reply.agrees_deliver_frame

/-- Calls beforehand, however many, are not seen in what is handed off. -/
theorem agrees_deliver_foldl
    (session : Session)
    (reply : Response)
    (calls : List Preparation) :
    (calls.foldl (leave session) reply).deliver.value.Agrees
        reply.deliver.value ∧
      (calls.foldl (leave session) reply).deliver.notes =
        reply.deliver.notes := by
  induction calls generalizing reply with
  | nil => exact ⟨.refl _, rfl⟩
  | cons call rest inductionHypothesis =>
      have later := inductionHypothesis (leave session reply call)
      have first := agrees_deliver_leave session reply call
      exact ⟨later.1.trans first.1, later.2.trans first.2⟩

/-- Called again, a call changes nothing and answers the same. -/
theorem leave_leave
    (session : Session)
    (reply : Response)
    (call : Preparation) :
    leave session (leave session reply call) call =
        leave session reply call ∧
      (call.step.apply session (leave session reply call)).answer =
        (call.step.apply session reply).answer := by
  cases call with
  | render =>
      rw [leave_render, leave_render]
      exact ⟨reply.render_render, rfl⟩
  | frame =>
      have settled : reply.frame.frame = reply.frame := by
        simp only [Buffered.frame, Message.frame_frame]
      have same :
          reply.frame.message.frameFailure? = reply.message.frameFailure? :=
        rfl
      rw [leave_frame, leave_frame]
      refine ⟨settled, ?_⟩
      simp only [step, Step.apply, same]
      split <;> rfl

end Preparation

/--
A reply in any state that is rendered and framed beforehand, any number of times in
any order and whether or not framing fails, is handed off as the message that it would
be handed off as at once, the order of fields aside, with the same notes.  Either call,
made twice in a row, leaves the reply as it is after the first and answers the same.
-/
theorem delivery_ignores_preparation
    (session : Session)
    (reply : Response)
    (calls : List Preparation) :
    let prepared := calls.foldl (Preparation.leave session) reply
    prepared.deliver.value.Agrees reply.deliver.value ∧
      prepared.deliver.notes = reply.deliver.notes ∧
      ∀ call : Preparation,
        let once := call.step.apply session reply
        let twice := call.step.apply session once.reply
        twice.reply = once.reply ∧ twice.answer = once.answer := by
  intro prepared
  obtain ⟨same, notes⟩ :=
    Preparation.agrees_deliver_foldl session reply calls
  exact ⟨same, notes, Preparation.leave_leave session reply⟩

end Reply
