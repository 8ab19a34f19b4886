import Reply.Session.State

namespace Reply

/-!
# The effect of one step

A step acts on the reply in hand and on the session.  Finalizing, firing a
handler and storing a moved reply take further work, which the step only names
as its sequel: the machine that runs the session does it.
-/

/-- Further work that a step calls for. -/
inductive Sequel
  | nothing
  | finalize
  | fire (handler : Handler)
  | store (slot : String) (reply : Response)

/-- Fire the handler there may be. -/
def Sequel.firing : Option Handler → Sequel
  | some handler => .fire handler
  | none => .nothing

/-- What a step leaves behind. -/
structure Effect where
  session : Session
  reply : Response
  answer : Answer
  notes : List Note
  sequel : Sequel

namespace Effect

/-- Nothing changes; there is only an answer. -/
def answering
    (session : Session)
    (reply : Response)
    (answer : Answer) :
    Effect :=
  ⟨session, reply, answer, [], .nothing⟩

/-- The reply changes and nothing else. -/
def changing (session : Session) (reply : Response) : Effect :=
  ⟨session, reply, .done, [], .nothing⟩

/-- The reply changes, or the failure is the answer. -/
def attempting
    (session : Session)
    (reply : Response) :
    Except Failure Response → Effect
  | .ok changed => changing session changed
  | .error failure => answering session reply (.failed failure)

/-- The reply changes with notes taken. -/
def noting (session : Session) (outcome : Noted Response) : Effect :=
  ⟨session, outcome.value, .done, outcome.notes, .nothing⟩

/-- The content changes if it can; the answer is whether it could. -/
def editing
    (session : Session)
    (reply : Response) :
    Option Payload → Effect
  | some payload =>
      ⟨session, reply.setPayload payload, .truth true, [], .nothing⟩
  | none => answering session reply (.truth false)

end Effect

namespace Session

/-- Attach a new handler to the reply in hand. -/
def setHandler
    (session : Session)
    (reply : Response)
    (name : String)
    (script : Script) :
    Effect :=
  .noting
    { session with nextSerial := session.nextSerial + 1 }
    (reply.attach ⟨session.nextSerial, name, script⟩)

/-- Release the reply's handler into the session under a name. -/
def releaseHandler
    (session : Session)
    (reply : Response)
    (name : String) :
    Effect :=
  let outcome := reply.detach
  match outcome.value.2 with
  | some handler =>
      ⟨{ session with handlers := session.handlers.put name handler },
        outcome.value.1, .handler true, outcome.notes, .nothing⟩
  | none =>
      ⟨session, outcome.value.1, .handler false, outcome.notes, .nothing⟩

/-- Take a released handler out of the session and fire it. -/
def invokeHandler
    (session : Session)
    (reply : Response)
    (name : String) :
    Effect :=
  match session.handlers.get? name with
  | some handler =>
      ⟨{ session with handlers := session.handlers.erase name },
        reply, .done, [], .fire handler⟩
  | none => .answering session reply (.refused .noHandler)

/-- Take a released handler out of the session and attach it. -/
def attachHandler
    (session : Session)
    (reply : Response)
    (name : String) :
    Effect :=
  match session.handlers.get? name with
  | some handler =>
      .noting
        { session with handlers := session.handlers.erase name }
        (reply.attach handler)
  | none => .answering session reply (.refused .noHandler)

/-- Attach a new probe on a flag to the reply in hand. -/
def setProbe
    (session : Session)
    (reply : Response)
    (flag : String) :
    Effect :=
  .changing
    { session with nextSerial := session.nextSerial + 1 }
    { reply with probe := some ⟨session.nextSerial, flag⟩ }

/-- Release the reply's probe into the session under a name. -/
def releaseProbe
    (session : Session)
    (reply : Response)
    (name : String) :
    Effect :=
  match reply.probe with
  | some probe =>
      ⟨{ session with probes := session.probes.put name probe },
        { reply with probe := none }, .probe true, [], .nothing⟩
  | none => .answering session reply (.probe false)

/-- Take a released probe out of the session and attach it. -/
def attachProbe
    (session : Session)
    (reply : Response)
    (name : String) :
    Effect :=
  match session.probes.get? name with
  | some probe =>
      .changing
        { session with probes := session.probes.erase name }
        { reply with probe := some probe }
  | none => .answering session reply (.refused .noProbe)

/-- Ask a released probe, leaving it where it is. -/
def checkProbe
    (session : Session)
    (reply : Response)
    (name : String) :
    Effect :=
  match session.probes.get? name with
  | some probe =>
      .answering session reply (.truth (session.flags.isUp probe.flag))
  | none => .answering session reply (.refused .noProbe)

/-- Move the reply out towards a slot, leaving a blank one in hand. -/
def relocate
    (session : Session)
    (reply : Response)
    (slot : String) :
    Effect :=
  let outcome := reply.relocate session.nextId
  ⟨{ session with nextId := session.nextId + 1 },
    outcome.value.2, .done, outcome.notes, .store slot outcome.value.1⟩

/-!
Where a step finds nothing to release or to take, what it does to the reply and to
the stores comes to nothing, so it is said in one way for both cases.
-/

section

variable (session : Session) (reply : Response) (name : String)

/-- Releasing moves the handler that there may be from the reply to the store. -/
theorem releaseHandler_eq :
    session.releaseHandler reply name =
      ⟨{ session with
          handlers := session.handlers.accept name reply.handler },
        { reply with completed := true, handler := none },
        .handler reply.handler.isSome, reply.detach.notes, .nothing⟩ := by
  unfold releaseHandler Buffered.detach
  cases reply.handler with
  | none => rfl
  | some handler => rfl

/-- Invoking takes the handler that there may be out of the store and fires it. -/
theorem invokeHandler_eq :
    session.invokeHandler reply name =
      ⟨{ session with handlers := session.handlers.erase name },
        reply,
        (session.handlers.get? name).elim (.refused .noHandler) fun _ => .done,
        [], .firing (session.handlers.get? name)⟩ := by
  unfold invokeHandler
  cases found : session.handlers.get? name with
  | none =>
      rw [Registry.erase_of_get?_eq_none found]
      rfl
  | some handler => rfl

/-- Attaching moves the handler that there may be from the store to the reply. -/
theorem attachHandler_eq :
    session.attachHandler reply name =
      ⟨{ session with handlers := session.handlers.erase name },
        { reply with
          completed :=
            reply.completed && (session.handlers.get? name).isNone
          handler := (session.handlers.get? name).or reply.handler },
        (session.handlers.get? name).elim (.refused .noHandler) fun _ => .done,
        (session.handlers.get? name).elim [] fun handler =>
          (reply.attach handler).notes,
        .nothing⟩ := by
  unfold attachHandler
  cases found : session.handlers.get? name with
  | none =>
      rw [Registry.erase_of_get?_eq_none found, Option.isNone_none,
        Bool.and_true]
      rfl
  | some handler =>
      rw [Option.isNone_some, Bool.and_false]
      rfl

/-- Releasing moves the probe that there may be from the reply to the store. -/
theorem releaseProbe_eq :
    session.releaseProbe reply name =
      ⟨{ session with probes := session.probes.accept name reply.probe },
        { reply with probe := none },
        .probe reply.probe.isSome, [], .nothing⟩ := by
  rcases reply with ⟨id, message, payload, completed, expected, handler, probe⟩
  cases probe with
  | none => rfl
  | some probe => rfl

/-- Attaching moves the probe that there may be from the store to the reply. -/
theorem attachProbe_eq :
    session.attachProbe reply name =
      ⟨{ session with probes := session.probes.erase name },
        { reply with probe := (session.probes.get? name).or reply.probe },
        (session.probes.get? name).elim (.refused .noProbe) fun _ => .done,
        [], .nothing⟩ := by
  unfold attachProbe
  cases found : session.probes.get? name with
  | none =>
      rw [Registry.erase_of_get?_eq_none found]
      rfl
  | some probe => rfl

/-- Asking a probe leaves everything as it is. -/
theorem checkProbe_eq :
    session.checkProbe reply name =
      .answering session reply
        ((session.probes.get? name).elim (.refused .noProbe) fun probe =>
          .truth (session.flags.isUp probe.flag)) := by
  unfold checkProbe
  cases session.probes.get? name with
  | none => rfl
  | some probe => rfl

end

end Session

/-- Carry out one step on the reply in hand, up to its sequel. -/
def Step.apply (session : Session) (reply : Response) : Step → Effect
  | .setField name octets =>
      .attempting session reply (reply.setField name octets)
  | .readField name =>
      .answering session reply
        (.textOrNone (reply.message.headers.text? name))
  | .setStatus code =>
      .attempting session reply (reply.setStatus code)
  | .readStatus =>
      .answering session reply (.text reply.message.status.text)
  | .setVersion version => .changing session (reply.setVersion version)
  | .append text => .changing session (reply.append text)
  | .setBody text => .changing session (reply.setBody text)
  | .keepAlive keep => .changing session (reply.keepAlive keep)
  | .readKeepAlive =>
      .answering session reply (.truth reply.message.keepsAlive)
  | .frame =>
      match reply.message.frameFailure? with
      | some failure =>
          ⟨session, reply.frame, .failed failure, [], .nothing⟩
      | none => .changing session reply.frame
  | .clear => .noting session reply.clear
  | .setPayload payload => .changing session (reply.setPayload payload)
  | .insertPayload key value =>
      .editing session reply (reply.payload.insert? key value)
  | .pushPayload value =>
      .editing session reply (reply.payload.push? value)
  | .render => .changing session reply.render
  | .readTag => .answering session reply (.text (reply.tag?.getD ""))
  | .expect tag =>
      .changing session (reply.expect (tag.getD (reply.tag?.getD "")))
  | .revalidate => .noting session reply.revalidate
  | .finalize => ⟨session, reply, .done, [], .finalize⟩
  | .readCompleted => .answering session reply (.truth reply.completed)
  | .readAlive =>
      .answering session reply
        (.truth (Probe.isAlive session.flags reply.probe))
  | .setHandler name script => session.setHandler reply name script
  | .releaseHandler name => session.releaseHandler reply name
  | .invokeHandler name => session.invokeHandler reply name
  | .attachHandler name => session.attachHandler reply name
  | .setProbe flag => session.setProbe reply flag
  | .setFlag flag up =>
      .changing { session with flags := session.flags.put flag up } reply
  | .releaseProbe name => session.releaseProbe reply name
  | .attachProbe name => session.attachProbe reply name
  | .checkProbe name => session.checkProbe reply name
  | .relocate slot => session.relocate reply slot
  | .unsupported => .answering session reply (.refused .unsupported)

end Reply
