import Reply.Proofs.Session.Conservation
import Reply.Session.Streaming

namespace Reply.Streaming

/-!
# Conservation in streaming sessions

A streaming session has one reply, whose handlers act on nothing, so a step is
carried out whole and the boundaries of a run are those between its steps.  The
law is the one of buffered sessions: what a step finds and makes is what it
leaves, fires and discards.
-/

/-- A handler is one token. -/
def Handler.tokens (handler : Handler) : List Token :=
  [.handler handler.serial]

/-- The tokens attached to the reply or held under the names of the stores. -/
def Session.tokens (session : Session) : List Token :=
  session.reply.handler.toList.flatMap Handler.tokens ++
    session.reply.probe.toList.flatMap Probe.tokens ++
    (session.handlers.contents.flatMap Handler.tokens ++
      session.probes.contents.flatMap Probe.tokens)

/-- The handler that fires here, if one does. -/
def Event.tokens : Event → List Token
  | .fired serial _ => [.handler serial]
  | .noted _ => []

/-- The handlers that fire in a trace. -/
def firings (trace : List Event) : List Token :=
  trace.flatMap Event.tokens

namespace Step

/-- The token that a step makes. -/
def made (session : Session) : Step → List Token
  | .setHandler _ _ => [.handler session.nextSerial]
  | .setProbe _ => [.probe session.nextSerial]
  | _ => []

/--
The tokens that a step discards: those whose place another one takes, on the
reply or in a store.
-/
def discarded (session : Session) : Step → List Token
  | .setHandler _ _ => session.reply.handler.toList.flatMap Handler.tokens
  | .releaseHandler name =>
      if session.reply.handler.isSome then
        (session.handlers.get? name).toList.flatMap Handler.tokens
      else
        []
  | .attachHandler name =>
      if (session.handlers.get? name).isSome then
        session.reply.handler.toList.flatMap Handler.tokens
      else
        []
  | .setProbe _ => session.reply.probe.toList.flatMap Probe.tokens
  | .releaseProbe name =>
      if session.reply.probe.isSome then
        (session.probes.get? name).toList.flatMap Probe.tokens
      else
        []
  | .attachProbe name =>
      if (session.probes.get? name).isSome then
        session.reply.probe.toList.flatMap Probe.tokens
      else
        []
  | _ => []

/-- Whether a step is about what the reply says. -/
def isContent : Step → Bool
  | .clear => false
  | .finalize => false
  | .setHandler _ _ => false
  | .releaseHandler _ => false
  | .invokeHandler _ => false
  | .attachHandler _ => false
  | .setProbe _ => false
  | .releaseProbe _ => false
  | .attachProbe _ => false
  | _ => true

end Step

/-! ## Steps on the content -/

/-- An outcome that leaves handlers, probes and serial numbers as they were. -/
structure Outcome.OnContent (session : Session) (outcome : Outcome) : Prop where
  handler : outcome.session.reply.handler = session.reply.handler
  probe : outcome.session.reply.probe = session.reply.probe
  handlers : outcome.session.handlers = session.handlers
  probes : outcome.session.probes = session.probes
  nextSerial : outcome.session.nextSerial = session.nextSerial
  silent : firings outcome.trace = []

@[simp] theorem firings_nil : firings [] = [] :=
  rfl

@[simp] theorem firings_noted (notes : List Note) :
    firings (notes.map Event.noted) = [] := by
  induction notes with
  | nil => rfl
  | cons note rest inductionHypothesis => exact inductionHypothesis

@[simp] theorem firings_append (first second : List Event) :
    firings (first ++ second) = firings first ++ firings second :=
  List.flatMap_append

namespace Outcome.OnContent

theorem answering
    (session : Session)
    (answer : Answer) :
    OnContent session (session.answering answer) :=
  ⟨rfl, rfl, rfl, rfl, rfl, rfl⟩

theorem changing
    (session : Session)
    {reply : Streamed Handler}
    (handler : reply.handler = session.reply.handler)
    (probe : reply.probe = session.reply.probe) :
    OnContent session (session.changing reply) :=
  ⟨handler, probe, rfl, rfl, rfl, rfl⟩

theorem setField
    (session : Session)
    (name : String)
    (octets : Octets) :
    OnContent session
      (session.attempting (session.reply.setField name octets)) := by
  unfold Streamed.setField
  cases session.reply.message.setField name octets with
  | error failure => exact answering session _
  | ok message => exact changing session rfl rfl

theorem setStatus
    (session : Session)
    (code : Nat) :
    OnContent session (session.attempting (session.reply.setStatus code)) := by
  unfold Streamed.setStatus
  cases session.reply.message.setStatus code with
  | error failure => exact answering session _
  | ok message => exact changing session rfl rfl

theorem write
    (session : Session)
    (octets : Octets) :
    OnContent session
      (session.writing octets (session.reply.write octets)) := by
  unfold Streamed.write
  cases session.reply.body.write octets with
  | error failure => exact ⟨rfl, rfl, rfl, rfl, rfl, rfl⟩
  | ok body => exact ⟨rfl, rfl, rfl, rfl, rfl, rfl⟩

theorem writeBody
    (session : Session)
    (octets : Octets) :
    OnContent session
      (session.writing octets
        (.silent
          ((session.reply.body.write octets).map
            session.reply.setBody))) := by
  cases session.reply.body.write octets with
  | error failure => exact ⟨rfl, rfl, rfl, rfl, rfl, rfl⟩
  | ok body => exact ⟨rfl, rfl, rfl, rfl, rfl, rfl⟩

end Outcome.OnContent

/-- A content step changes the content alone. -/
theorem Step.onContent
    (session : Session)
    {step : Step}
    (content : step.isContent = true) :
    Outcome.OnContent session (session.perform step) := by
  cases step with
  | setField name octets => exact .setField session name octets
  | setStatus code => exact .setStatus session code
  | write octets => exact .write session octets
  | writeBody octets => exact .writeBody session octets
  | setVersion | keepAlive | consumeBody => exact .changing session rfl rfl
  | frame =>
      simp only [Session.perform]
      split <;> exact ⟨rfl, rfl, rfl, rfl, rfl, rfl⟩
  | setFlag flag up => exact ⟨rfl, rfl, rfl, rfl, rfl, rfl⟩
  | readField | readStatus | readKeepAlive | readCompleted | readAlive
  | readSameId | unsupported =>
      exact .answering session _
  | clear | finalize | setHandler | releaseHandler | invokeHandler
  | attachHandler | setProbe | releaseProbe | attachProbe =>
      contradiction

/-! ## The law for one step -/

/-- A session whose stores use no name twice. -/
structure Session.Keyed (session : Session) : Prop where
  handlers : (session.handlers.entries.map Prod.fst).Nodup
  probes : (session.probes.entries.map Prod.fst).Nodup

/-- No session uses a name twice. -/
theorem Session.keyed (session : Session) : session.Keyed :=
  ⟨session.handlers.distinct, session.probes.distinct⟩

/-- A fired handler is on record, and nothing else moves. -/
theorem Session.count_tokens_fire
    (session : Session)
    (handler : Handler)
    (before : List Note)
    (token : Token) :
    (session.fire handler before).session.tokens.count token +
        (firings (session.fire handler before).trace).count token =
      session.tokens.count token + handler.tokens.count token := by
  simp only [fire, firings_append, firings_noted]
  rfl

/-- Finalizing loses nothing: the handler that is due fires. -/
theorem Session.count_tokens_finalize
    (session : Session)
    (token : Token) :
    session.finalize.session.tokens.count token +
        (firings session.finalize.trace).count token =
      session.tokens.count token := by
  have parted :
      ({ session with reply := session.reply.finalize.value.1 } :
          Session).tokens.count token +
        (session.reply.finalize.value.2.toList.flatMap
          Handler.tokens).count token =
      session.tokens.count token := by
    simp only [Streamed.finalize, tokens]
    split
    · rfl
    · simp only [Option.toList_none, List.flatMap_nil, List.nil_append,
        List.count_append]
      omega
  simp only [finalize]
  split
  · next handler due =>
      rw [due, Option.toList_some, List.flatMap_singleton] at parted
      rw [count_tokens_fire]
      exact parted
  · next due =>
      rw [due] at parted
      rw [firings_noted]
      exact parted

/-- What a step finds and makes is what it leaves, fires and discards. -/
theorem Step.custody
    (session : Session)
    (step : Step)
    (token : Token) :
    (session.perform step).session.tokens.count token +
        (firings (session.perform step).trace).count token +
        (step.discarded session).count token =
      session.tokens.count token + (step.made session).count token := by
  cases content : step.isContent with
  | true =>
      have effect := step.onContent session content
      have nothing : step.made session = [] ∧ step.discarded session = [] := by
        cases step with
        | clear | finalize | setHandler | releaseHandler | invokeHandler
        | attachHandler | setProbe | releaseProbe | attachProbe =>
            contradiction
        | _ => exact ⟨rfl, rfl⟩
      rw [effect.silent, nothing.1, nothing.2, Session.tokens, effect.handler,
        effect.probe, effect.handlers, effect.probes]
      rfl
  | false =>
      cases step with
      | clear => rfl
      | finalize => exact session.count_tokens_finalize token
      | setHandler name signals =>
          simp only [Session.perform, Session.noting, Streamed.attach,
            Session.tokens, discarded, made, firings_noted, Option.toList_some,
            List.flatMap_singleton, Handler.tokens, List.count_append,
            List.count_nil]
          omega
      | releaseHandler name =>
          have exchanged :=
            session.handlers.count_flatMap_accept Handler.tokens name
              session.reply.handler token
          simp only [Session.perform, Session.releaseHandler_eq,
            Session.tokens, discarded, made, firings_nil, Option.toList_none,
            List.flatMap_nil, List.count_append, List.count_nil]
          omega
      | invokeHandler name =>
          have taken :=
            session.handlers.count_flatMap_erase Handler.tokens name token
          simp only [Session.perform, Session.invokeHandler, discarded, made]
          cases found : session.handlers.get? name with
          | none => rfl
          | some handler =>
              rw [found, Option.toList_some,
                List.flatMap_singleton] at taken
              rw [Session.count_tokens_fire]
              simp only [Session.tokens, List.count_append, List.count_nil]
              omega
      | attachHandler name =>
          have taken :=
            session.handlers.count_flatMap_erase Handler.tokens name token
          have replaced :=
            Registry.count_flatMap_or Handler.tokens
              (session.handlers.get? name) session.reply.handler token
          simp only [Session.perform, Session.attachHandler_eq,
            Session.tokens, discarded, made, firings_noted, List.count_append,
            List.count_nil]
          omega
      | setProbe flag =>
          simp only [Session.perform, Session.changing, Session.tokens,
            discarded, made, Option.toList_some, List.flatMap_singleton,
            Probe.tokens, firings_nil, List.count_append, List.count_nil]
          omega
      | releaseProbe name =>
          have exchanged :=
            session.probes.count_flatMap_accept Probe.tokens name
              session.reply.probe token
          simp only [Session.perform, Session.releaseProbe_eq, Session.tokens,
            discarded, made, firings_nil, Option.toList_none,
            List.flatMap_nil, List.count_append, List.count_nil]
          omega
      | attachProbe name =>
          have taken :=
            session.probes.count_flatMap_erase Probe.tokens name token
          have replaced :=
            Registry.count_flatMap_or Probe.tokens
              (session.probes.get? name) session.reply.probe token
          simp only [Session.perform, Session.attachProbe_eq, Session.tokens,
            discarded, made, firings_nil, List.count_append, List.count_nil]
          omega
      | _ => contradiction

/-- A step makes at most one token, with the next serial number. -/
theorem Step.numbered
    (step : Step)
    (session : Session) :
    Numbered (step.made session) session.nextSerial
      (session.perform step).session.nextSerial := by
  cases content : step.isContent with
  | true =>
      refine Or.inl ⟨?_, (step.onContent session content).nextSerial⟩
      cases step with
      | setHandler | setProbe => contradiction
      | _ => rfl
  | false =>
      cases step with
      | setHandler | setProbe => exact Or.inr ⟨_, rfl, rfl, rfl⟩
      | clear => exact Or.inl ⟨rfl, rfl⟩
      | finalize =>
          simp only [Session.perform, Session.finalize]
          split <;> exact Or.inl ⟨rfl, rfl⟩
      | releaseHandler name =>
          rw [Session.perform, Session.releaseHandler_eq]
          exact Or.inl ⟨rfl, rfl⟩
      | invokeHandler name =>
          simp only [Session.perform, Session.invokeHandler]
          split <;> exact Or.inl ⟨rfl, rfl⟩
      | attachHandler name =>
          rw [Session.perform, Session.attachHandler_eq]
          exact Or.inl ⟨rfl, rfl⟩
      | releaseProbe name =>
          rw [Session.perform, Session.releaseProbe_eq]
          exact Or.inl ⟨rfl, rfl⟩
      | attachProbe name =>
          rw [Session.perform, Session.attachProbe_eq]
          exact Or.inl ⟨rfl, rfl⟩
      | _ => contradiction

/-! ## The law for whole runs -/

/-- A step and the session that it is carried out on. -/
structure Turn where
  session : Session
  step : Step

namespace Turn

/-- The token that a turn makes. -/
def made (turn : Turn) : List Token :=
  turn.step.made turn.session

/-- The tokens that a turn discards. -/
def discarded (turn : Turn) : List Token :=
  turn.step.discarded turn.session

/-- The events of a turn. -/
def events (turn : Turn) : List Event :=
  (turn.session.perform turn.step).trace

end Turn

/-- The turns from a new session to a session, in order. -/
inductive Run (capacity : Nat) : List Turn → Session → Prop
  | start : Run capacity [] (.ofCapacity capacity)
  | step
      {turns : List Turn}
      {session : Session}
      (run : Run capacity turns session)
      (step : Step) :
      Run capacity (turns ++ [⟨session, step⟩]) (session.perform step).session

namespace Run

variable {capacity : Nat} {turns : List Turn} {session : Session}

theorem nodup_made (run : Run capacity turns session) :
    (turns.flatMap Turn.made).Nodup ∧
      ∀ token ∈ turns.flatMap Turn.made, token.serial < session.nextSerial := by
  induction run with
  | start => exact ⟨List.nodup_nil, by simp⟩
  | step run step inductionHypothesis =>
      rw [List.flatMap_append, List.flatMap_singleton]
      exact
        (step.numbered _).nodup_append inductionHypothesis.1
          inductionHypothesis.2

/-- In every run each token that was made is in exactly one place. -/
theorem perm_places (run : Run capacity turns session) :
    (session.tokens ++ firings (turns.flatMap Turn.events) ++
        turns.flatMap Turn.discarded).Perm
      (turns.flatMap Turn.made) := by
  induction run with
  | start => exact List.Perm.refl _
  | @step turns session run step inductionHypothesis =>
      apply List.perm_iff_count.mpr
      intro token
      have law := step.custody session token
      have former := inductionHypothesis.count_eq token
      simp only [List.flatMap_append, List.flatMap_singleton, firings_append,
        List.count_append, Turn.events, Turn.discarded,
        Turn.made] at former ⊢
      omega

theorem nodup_firings (run : Run capacity turns session) :
    (firings (turns.flatMap Turn.events)).Nodup := by
  have single := run.perm_places.nodup_iff.mpr run.nodup_made.1
  have present := (List.nodup_append.mp single).1
  exact (List.nodup_append.mp present).2.1

/-- Performing steps one after the other carries a run on. -/
theorem exists_performAll
    (run : Run capacity turns session)
    (steps : List Step) :
    ∃ more last,
      Run capacity (turns ++ more) last ∧
        more.flatMap Turn.events =
          (session.performAll steps).flatMap Outcome.trace := by
  induction steps generalizing turns session with
  | nil => exact ⟨[], session, by simpa using run, rfl⟩
  | cons step rest inductionHypothesis =>
      obtain ⟨more, last, goesOn, events⟩ :=
        inductionHypothesis (run.step step)
      refine ⟨⟨session, step⟩ :: more, last, by simpa using goesOn, ?_⟩
      rw [List.flatMap_cons, events]
      rfl

end Run

end Reply.Streaming
