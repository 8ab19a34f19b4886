import Reply.Session.Step
import Reply.Streamed

namespace Reply

/-!
# Streaming sessions

One streamed reply with the handlers and probes released from it.  A handler of
a streamed reply is given nothing to act on: when it fires it may set flags.
-/

namespace Streaming

/-- A completion handler: what it is called and the flags it sets, in order. -/
structure Handler where
  serial : Nat
  name : String
  signals : List (String × Bool)

/-- One thing asked of the reply. -/
inductive Step
  | setField (name : String) (octets : Octets)
  | readField (name : String)
  | setStatus (code : Nat)
  | readStatus
  | setVersion (version : Version)
  | keepAlive (keep : Bool)
  | readKeepAlive
  | frame
  | clear
  | write (octets : Octets)
  | writeBody (octets : Octets)
  | consumeBody (count : Nat)
  | finalize
  | readCompleted
  | readAlive
  | readSameId
  | setHandler (name : String) (signals : List (String × Bool))
  | releaseHandler (name : String)
  | invokeHandler (name : String)
  | attachHandler (name : String)
  | setProbe (flag : String)
  | setFlag (flag : String) (up : Bool)
  | releaseProbe (name : String)
  | attachProbe (name : String)
  | unsupported

/-- The reply and all that outlives a step. -/
structure Session where
  born : Nat
  reply : Streamed Handler
  handlers : Registry String Handler
  probes : Registry String Probe
  flags : Flags
  nextSerial : Nat

/-- Something that happened while a step was carried out. -/
inductive Event
  | noted (note : Note)
  | fired (serial : Nat) (name : String)
  deriving DecidableEq

/-- The note, if this is one. -/
def Event.note? : Event → Option Note
  | .noted note => some note
  | .fired _ _ => none

/-- What a step left behind. -/
structure Outcome where
  session : Session
  answer : Answer
  trace : List Event

namespace Session

/--
A session around a new reply with a body of a capacity.  No other reply is made in it,
so this one has the first identity.
-/
def ofCapacity (capacity : Nat) : Session where
  born := 0
  reply := .ofCapacity 0 capacity
  handlers := .empty
  probes := .empty
  flags := .empty
  nextSerial := 0

/-- Nothing changes; there is only an answer. -/
def answering (session : Session) (answer : Answer) : Outcome :=
  ⟨session, answer, []⟩

/-- The reply changes and nothing else. -/
def changing (session : Session) (reply : Streamed Handler) : Outcome :=
  ⟨{ session with reply := reply }, .done, []⟩

/-- The reply changes, or the failure is the answer. -/
def attempting
    (session : Session) :
    Except Failure (Streamed Handler) → Outcome
  | .ok reply => session.changing reply
  | .error failure => session.answering (.failed failure)

/-- The reply changes with notes taken. -/
def noting (session : Session) (outcome : Noted (Streamed Handler)) : Outcome :=
  ⟨{ session with reply := outcome.value }, .done,
    outcome.notes.map Event.noted⟩

/-- The body took octets in, or the failure is the answer. -/
def writing
    (session : Session)
    (octets : Octets)
    (outcome : Noted (Except Failure (Streamed Handler))) :
    Outcome :=
  match outcome.value with
  | .ok reply =>
      ⟨{ session with reply := reply }, .count octets.length,
        outcome.notes.map Event.noted⟩
  | .error failure =>
      ⟨session, .failed failure, outcome.notes.map Event.noted⟩

/-- Fire a handler: it is on record, and the flags it names are set. -/
def fire
    (session : Session)
    (handler : Handler)
    (before : List Note) :
    Outcome :=
  ⟨{ session with flags := session.flags.signalled handler.signals }, .done,
    before.map Event.noted ++ [.fired handler.serial handler.name]⟩

/-- Finalize the reply and fire the handler that is due. -/
def finalize (session : Session) : Outcome :=
  let outcome := session.reply.finalize
  let finished := { session with reply := outcome.value.1 }
  match outcome.value.2 with
  | some handler => finished.fire handler outcome.notes
  | none => ⟨finished, .done, outcome.notes.map Event.noted⟩

/-- Release the reply's handler into the session under a name. -/
def releaseHandler (session : Session) (name : String) : Outcome :=
  let outcome := session.reply.detach
  let detached := { session with reply := outcome.value.1 }
  match outcome.value.2 with
  | some handler =>
      ⟨{ detached with handlers := session.handlers.put name handler },
        .handler true, outcome.notes.map Event.noted⟩
  | none =>
      ⟨detached, .handler false, outcome.notes.map Event.noted⟩

/-- Take a released handler out of the session and fire it. -/
def invokeHandler (session : Session) (name : String) : Outcome :=
  match session.handlers.get? name with
  | some handler =>
      fire
        { session with handlers := session.handlers.erase name }
        handler
        []
  | none => session.answering (.refused .noHandler)

/-- Take a released handler out of the session and attach it. -/
def attachHandler (session : Session) (name : String) : Outcome :=
  match session.handlers.get? name with
  | some handler =>
      noting
        { session with handlers := session.handlers.erase name }
        (session.reply.attach handler)
  | none => session.answering (.refused .noHandler)

/-- Release the reply's probe into the session under a name. -/
def releaseProbe (session : Session) (name : String) : Outcome :=
  match session.reply.probe with
  | some probe =>
      ⟨{ session with
          reply := { session.reply with probe := none }
          probes := session.probes.put name probe },
        .probe true, []⟩
  | none => session.answering (.probe false)

/-- Take a released probe out of the session and attach it. -/
def attachProbe (session : Session) (name : String) : Outcome :=
  match session.probes.get? name with
  | some probe =>
      changing
        { session with probes := session.probes.erase name }
        { session.reply with probe := some probe }
  | none => session.answering (.refused .noProbe)

/-!
Where a step finds nothing to release or to take, what it does to the reply and to
the stores comes to nothing, so it is said in one way for both cases.
-/

section

variable (session : Session) (name : String)

/-- Releasing moves the handler that there may be from the reply to the store. -/
theorem releaseHandler_eq :
    session.releaseHandler name =
      ⟨{ session with
          reply := { session.reply with completed := true, handler := none }
          handlers := session.handlers.accept name session.reply.handler },
        .handler session.reply.handler.isSome, []⟩ := by
  unfold releaseHandler Streamed.detach
  cases session.reply.handler with
  | none => rfl
  | some handler => rfl

/-- Attaching moves the handler that there may be from the store to the reply. -/
theorem attachHandler_eq :
    session.attachHandler name =
      ⟨{ session with
          reply :=
            { session.reply with
              completed :=
                session.reply.completed && (session.handlers.get? name).isNone
              handler :=
                (session.handlers.get? name).or session.reply.handler }
          handlers := session.handlers.erase name },
        (session.handlers.get? name).elim (.refused .noHandler) fun _ => .done,
        ((session.handlers.get? name).elim [] fun handler =>
          (session.reply.attach handler).notes).map Event.noted⟩ := by
  unfold attachHandler
  cases found : session.handlers.get? name with
  | none =>
      rw [Registry.erase_of_get?_eq_none found, Option.isNone_none,
        Bool.and_true]
      rfl
  | some handler =>
      rw [Option.isNone_some, Bool.and_false]
      rfl

/-- Releasing moves the probe that there may be from the reply to the store. -/
theorem releaseProbe_eq :
    session.releaseProbe name =
      ⟨{ session with
          reply := { session.reply with probe := none }
          probes := session.probes.accept name session.reply.probe },
        .probe session.reply.probe.isSome, []⟩ := by
  rcases session with ⟨born, ⟨id, message, completed, handler, probe⟩⟩
  cases probe with
  | none => rfl
  | some probe => rfl

/-- Attaching moves the probe that there may be from the store to the reply. -/
theorem attachProbe_eq :
    session.attachProbe name =
      ⟨{ session with
          reply :=
            { session.reply with
              probe := (session.probes.get? name).or session.reply.probe }
          probes := session.probes.erase name },
        (session.probes.get? name).elim (.refused .noProbe) fun _ => .done,
        []⟩ := by
  unfold attachProbe
  cases found : session.probes.get? name with
  | none =>
      rw [Registry.erase_of_get?_eq_none found]
      rfl
  | some probe => rfl

end

/-- Carry out one step. -/
def perform (session : Session) : Step → Outcome
  | .setField name octets =>
      session.attempting (session.reply.setField name octets)
  | .readField name =>
      session.answering
        (.textOrNone (session.reply.message.headers.text? name))
  | .setStatus code => session.attempting (session.reply.setStatus code)
  | .readStatus =>
      session.answering (.text session.reply.message.status.text)
  | .setVersion version =>
      session.changing (session.reply.setVersion version)
  | .keepAlive keep => session.changing (session.reply.keepAlive keep)
  | .readKeepAlive =>
      session.answering (.truth session.reply.message.keepsAlive)
  | .frame =>
      let framed := { session with reply := session.reply.frame }
      match session.reply.message.frameFailure? with
      | some failure => framed.answering (.failed failure)
      | none => framed.answering .done
  | .clear => session.noting session.reply.clear
  | .write octets => session.writing octets (session.reply.write octets)
  | .writeBody octets =>
      session.writing octets
        (.silent ((session.reply.body.write octets).map session.reply.setBody))
  | .consumeBody count =>
      session.changing
        (session.reply.setBody (session.reply.body.consume count))
  | .finalize => session.finalize
  | .readCompleted => session.answering (.truth session.reply.completed)
  | .readAlive =>
      session.answering
        (.truth (Probe.isAlive session.flags session.reply.probe))
  | .readSameId =>
      session.answering (.truth (session.reply.id = session.born))
  | .setHandler name signals =>
      noting
        { session with nextSerial := session.nextSerial + 1 }
        (session.reply.attach ⟨session.nextSerial, name, signals⟩)
  | .releaseHandler name => session.releaseHandler name
  | .invokeHandler name => session.invokeHandler name
  | .attachHandler name => session.attachHandler name
  | .setProbe flag =>
      changing
        { session with nextSerial := session.nextSerial + 1 }
        { session.reply with probe := some ⟨session.nextSerial, flag⟩ }
  | .setFlag flag up =>
      answering { session with flags := session.flags.put flag up } .done
  | .releaseProbe name => session.releaseProbe name
  | .attachProbe name => session.attachProbe name
  | .unsupported => session.answering (.refused .unsupported)

/-- Carry out steps one after the other. -/
def performAll (session : Session) : List Step → List Outcome
  | [] => []
  | step :: rest =>
      let outcome := session.perform step
      outcome :: outcome.session.performAll rest

end Session

end Streaming

end Reply
