import Reply.Session.Effect

namespace Reply

/-!
# Steps on the content of a reply

Most steps read or change what a reply says and nothing else: its identity, the
completed mark, the handler and the probe stay, the stores and counters of the
session stay, and no further work is called for.  Statements about those four
fields need only look at the few steps that are left.
-/

namespace Buffered

variable {η : Type}

/-- One reply has the identity, completed mark, handler and probe of another. -/
structure Kept (before after : Buffered η) : Prop where
  id : after.id = before.id
  completed : after.completed = before.completed
  handler : after.handler = before.handler
  probe : after.probe = before.probe

namespace Kept

theorem refl (reply : Buffered η) : Kept reply reply :=
  ⟨rfl, rfl, rfl, rfl⟩

theorem setField
    {reply changed : Buffered η}
    {name : String}
    {octets : Octets}
    (accepted : reply.setField name octets = .ok changed) :
    Kept reply changed := by
  unfold Buffered.setField at accepted
  cases outcome : reply.message.setField name octets with
  | error failure =>
      simp [outcome, bind, Except.bind] at accepted
  | ok message =>
      simp [outcome, bind, Except.bind, pure, Except.pure] at accepted
      rw [← accepted]
      exact ⟨rfl, rfl, rfl, rfl⟩

theorem setStatus
    {reply changed : Buffered η}
    {code : Nat}
    (accepted : reply.setStatus code = .ok changed) :
    Kept reply changed := by
  unfold Buffered.setStatus at accepted
  cases outcome : reply.message.setStatus code with
  | error failure =>
      simp [outcome, bind, Except.bind] at accepted
  | ok message =>
      simp [outcome, bind, Except.bind, pure, Except.pure] at accepted
      rw [← accepted]
      exact ⟨rfl, rfl, rfl, rfl⟩

theorem render (reply : Buffered η) : Kept reply reply.render := by
  simp only [Buffered.render]
  split
  · exact ⟨rfl, rfl, rfl, rfl⟩
  · exact refl reply

theorem withTag
    (reply : Buffered η)
    (tag : String) :
    Kept reply (reply.withTag tag) := by
  simp only [Buffered.withTag]
  split
  · exact ⟨rfl, rfl, rfl, rfl⟩
  · exact refl reply

theorem tagged (reply : Buffered η) : Kept reply reply.tagged := by
  simp only [Buffered.tagged]
  split
  · exact withTag reply _
  · exact refl reply

theorem revalidate (reply : Buffered η) :
    Kept reply reply.revalidate.value := by
  simp only [Buffered.revalidate]
  split
  · exact refl reply
  · next tag current =>
      have kept := withTag reply tag
      split
      · exact ⟨kept.id, kept.completed, kept.handler, kept.probe⟩
      · exact kept

end Kept

/-- What finalizing makes of a reply, and the handler that is due. -/
theorem finalize_value (reply : Buffered η) :
    reply.finalize.value =
      if reply.completed then
        (reply.tagged, none)
      else
        ({ reply.tagged with completed := true, handler := none },
          reply.handler) := by
  have kept := Kept.tagged reply
  simp only [Buffered.finalize, kept.completed, kept.handler]
  split <;> rfl

end Buffered

/-- An effect that changes the content of the reply and at most flags beside it. -/
structure Effect.OnContent
    (session : Session)
    (reply : Response)
    (effect : Effect) : Prop where
  kept : Buffered.Kept reply effect.reply
  session : ∃ flags, effect.session = { session with flags := flags }
  sequel : effect.sequel = .nothing

namespace Effect.OnContent

theorem answering
    (session : Session)
    (reply : Response)
    (answer : Answer) :
    OnContent session reply (.answering session reply answer) :=
  ⟨.refl reply, ⟨session.flags, rfl⟩, rfl⟩

theorem changing
    (session : Session)
    {reply changed : Response}
    (kept : Buffered.Kept reply changed) :
    OnContent session reply (.changing session changed) :=
  ⟨kept, ⟨session.flags, rfl⟩, rfl⟩

theorem attempting
    (session : Session)
    {reply : Response}
    {outcome : Except Failure Response}
    (kept : ∀ changed, outcome = .ok changed → Buffered.Kept reply changed) :
    OnContent session reply (.attempting session reply outcome) := by
  cases outcome with
  | ok changed => exact changing session (kept changed rfl)
  | error failure => exact answering session reply _

theorem editing
    (session : Session)
    (reply : Response)
    (edited : Option Payload) :
    OnContent session reply (.editing session reply edited) := by
  cases edited with
  | some payload => exact ⟨⟨rfl, rfl, rfl, rfl⟩, ⟨session.flags, rfl⟩, rfl⟩
  | none => exact answering session reply _

end Effect.OnContent

namespace Step

/-- Whether a step is about the content of the reply alone. -/
def isContent : Step → Bool
  | .clear => false
  | .finalize => false
  | .setHandler _ _ => false
  | .releaseHandler _ => false
  | .invokeHandler _ => false
  | .attachHandler _ => false
  | .setProbe _ => false
  | .releaseProbe _ => false
  | .attachProbe _ => false
  | .relocate _ => false
  | _ => true

/-- A content step has an effect on the content alone. -/
theorem onContent
    (session : Session)
    (reply : Response)
    {step : Step}
    (content : step.isContent = true) :
    Effect.OnContent session reply (step.apply session reply) := by
  cases step with
  | setField name octets =>
      exact .attempting session fun _ => Buffered.Kept.setField
  | setStatus code =>
      exact .attempting session fun _ => Buffered.Kept.setStatus
  | setVersion | append | setBody | keepAlive | setPayload | expect =>
      exact .changing session ⟨rfl, rfl, rfl, rfl⟩
  | render => exact .changing session (.render reply)
  | frame =>
      simp only [apply]
      split
      · exact ⟨⟨rfl, rfl, rfl, rfl⟩, ⟨session.flags, rfl⟩, rfl⟩
      · exact .changing session ⟨rfl, rfl, rfl, rfl⟩
  | insertPayload => exact .editing ..
  | pushPayload => exact .editing ..
  | revalidate => exact ⟨.revalidate reply, ⟨session.flags, rfl⟩, rfl⟩
  | setFlag flag up => exact ⟨.refl reply, ⟨_, rfl⟩, rfl⟩
  | checkProbe name =>
      rw [apply, Session.checkProbe_eq]
      exact .answering ..
  | readField | readStatus | readKeepAlive | readTag | readCompleted
  | readAlive | unsupported =>
      exact .answering ..
  | clear | finalize | setHandler | releaseHandler | invokeHandler
  | attachHandler | setProbe | releaseProbe | attachProbe | relocate =>
      contradiction

end Step

end Reply
