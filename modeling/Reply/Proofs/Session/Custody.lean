import Reply.Proofs.Session.Settled

namespace Reply

/-!
# Custody of handlers and probes

A handler or a probe is a token that is made once and then only changes hands.
At every boundary of a run each token is in one place: on one live reply, under
one name of a store, among the handlers that have fired, or among those that were
discarded because another took their place or because their reply was destroyed.
Nothing owns a token by itself here, so this is a law of conservation: what a
turn finds and makes is what it leaves, fires and discards.
-/

/-- A handler or a probe, by its serial number. -/
inductive Token
  | handler (serial : Nat)
  | probe (serial : Nat)
  deriving DecidableEq

/-- The serial number of a token. -/
def Token.serial : Token → Nat
  | .handler serial => serial
  | .probe serial => serial

/-- A handler is one token. -/
def Handler.tokens (handler : Handler) : List Token :=
  [.handler handler.serial]

/-- A probe is one token. -/
def Probe.tokens (probe : Probe) : List Token :=
  [.probe probe.serial]

/-- The tokens attached to a reply. -/
def Buffered.tokens (reply : Response) : List Token :=
  reply.handler.toList.flatMap Handler.tokens ++
    reply.probe.toList.flatMap Probe.tokens

/-- The tokens held under the names of the two stores. -/
def Session.held (session : Session) : List Token :=
  session.handlers.contents.flatMap Handler.tokens ++
    session.probes.contents.flatMap Probe.tokens

/-- The handlers that fire in a trace. -/
def firings (trace : List Event) : List Token :=
  (trace.filterMap Event.firing?).map Token.handler

namespace Machine

/-- The tokens attached to live replies. -/
def attached (machine : Machine) : List Token :=
  machine.replies.flatMap Buffered.tokens

/-- The tokens attached, held or fired. -/
def placed (machine : Machine) : List Token :=
  machine.attached ++ machine.session.held ++ firings machine.trace

end Machine

/-- The tokens that a sequel carries off. -/
def Sequel.tokens : Sequel → List Token
  | .fire handler => handler.tokens
  | .store _ reply => reply.tokens
  | _ => []

/-! ## What is made and what is discarded -/

namespace Step

/-- The token that a step makes. -/
def made (session : Session) : Step → List Token
  | .setHandler _ _ => [.handler session.nextSerial]
  | .setProbe _ => [.probe session.nextSerial]
  | _ => []

/--
The tokens that a step discards: those whose place another one takes, on the
reply or in a store.
-/
def discarded (session : Session) (reply : Response) : Step → List Token
  | .setHandler _ _ => reply.handler.toList.flatMap Handler.tokens
  | .releaseHandler name =>
      if reply.handler.isSome then
        (session.handlers.get? name).toList.flatMap Handler.tokens
      else
        []
  | .attachHandler name =>
      if (session.handlers.get? name).isSome then
        reply.handler.toList.flatMap Handler.tokens
      else
        []
  | .setProbe _ => reply.probe.toList.flatMap Probe.tokens
  | .releaseProbe name =>
      if reply.probe.isSome then
        (session.probes.get? name).toList.flatMap Probe.tokens
      else
        []
  | .attachProbe name =>
      if (session.probes.get? name).isSome then
        reply.probe.toList.flatMap Probe.tokens
      else
        []
  | _ => []

end Step

namespace Task

/-- The token that a task makes. -/
def made (machine : Machine) : Task → List Token
  | .play _ ((_, step) :: _) =>
      if machine.hand.isEmpty then [] else step.made machine.session
  | _ => []

/--
The tokens that a task discards: those of a destroyed reply, or those that the
next step of a script discards.
-/
def discarded (machine : Machine) : Task → List Token
  | .play _ ((_, step) :: _) =>
      match machine.hand with
      | [] => []
      | reply :: _ => step.discarded machine.session reply
  | .shelve slot _ =>
      match machine.hand, machine.session.slots.get? slot with
      | _ :: _, some ⟨former, false⟩ => former.tokens
      | _, _ => []
  | .discard =>
      match machine.hand with
      | [] => []
      | reply :: _ => reply.tokens
  | _ => []

end Task

namespace Action

/-- The token that an action makes. -/
def made (session : Session) : Action → List Token
  | .ask step => step.made session
  | _ => []

/--
The tokens that an action discards: those of a plain reply that is dropped or
handed off, or those that the step asked for discards.
-/
def discarded (session : Session) (holding : Holding) : Action → List Token
  | .drop => if holding.guarded then [] else holding.reply.tokens
  | .release => if holding.guarded then [] else holding.reply.tokens
  | .deliver => if holding.guarded then [] else holding.reply.tokens
  | .ask step => step.discarded session holding.reply
  | _ => []

end Action

namespace Command

/-- The token that a command makes. -/
def made (session : Session) : Command → List Token
  | .act slot action =>
      if (session.slots.get? slot).isSome then action.made session else []
  | _ => []

/-- The tokens that a command discards. -/
def discarded (session : Session) : Command → List Token
  | .act slot action =>
      match session.slots.get? slot with
      | some holding => action.discarded session holding
      | none => []
  | _ => []

end Command

namespace Turn

/-- The token that a turn makes. -/
def made : Turn → List Token
  | .order session command => command.made session
  | .work machine task => task.made machine

/-- The tokens that a turn discards. -/
def discarded : Turn → List Token
  | .order session command => command.discarded session
  | .work machine task => task.discarded machine

end Turn

/-! ## Stores with single names -/

/-- A session whose slots and stores use no name twice. -/
structure Session.Keyed (session : Session) : Prop where
  slots : (session.slots.entries.map Prod.fst).Nodup
  handlers : (session.handlers.entries.map Prod.fst).Nodup
  probes : (session.probes.entries.map Prod.fst).Nodup

/-- No session uses a name twice. -/
theorem Session.keyed (session : Session) : session.Keyed :=
  ⟨session.slots.distinct, session.handlers.distinct, session.probes.distinct⟩

/-! ## The law for one step -/

namespace Buffered

/-- A reply that keeps its handler and probe keeps its tokens. -/
theorem Kept.tokens
    {before after : Response}
    (kept : Kept before after) :
    after.tokens = before.tokens := by
  rw [Buffered.tokens, Buffered.tokens, kept.handler, kept.probe]

theorem tokens_blank (id : Nat) :
    (blank id : Response).tokens = [] :=
  rfl

end Buffered

theorem Sequel.tokens_firing (handler? : Option Handler) :
    (firing handler?).tokens = handler?.toList.flatMap Handler.tokens := by
  cases handler? with
  | none => rfl
  | some handler => rfl

namespace Step

/-- A content step makes and discards nothing. -/
theorem made_of_content
    (session : Session)
    (reply : Response)
    {step : Step}
    (content : step.isContent = true) :
    step.made session = [] ∧ step.discarded session reply = [] := by
  cases step with
  | clear | finalize | setHandler | releaseHandler | invokeHandler
  | attachHandler | setProbe | releaseProbe | attachProbe | relocate =>
      contradiction
  | _ => exact ⟨rfl, rfl⟩

/-- What a step finds and makes is what it leaves, carries off and discards. -/
theorem custody
    (session : Session)
    {reply : Response}
    (settled : reply.Settled)
    (step : Step)
    (token : Token) :
    (step.apply session reply).reply.tokens.count token +
        (step.apply session reply).session.held.count token +
        (step.apply session reply).sequel.tokens.count token +
        (step.discarded session reply).count token =
      reply.tokens.count token + session.held.count token +
        (step.made session).count token := by
  cases content : step.isContent with
  | true =>
      have effect := step.onContent session reply content
      obtain ⟨flags, same⟩ := effect.session
      obtain ⟨nothingMade, nothingDiscarded⟩ :=
        made_of_content session reply content
      rw [effect.kept.tokens, effect.sequel, same, nothingMade,
        nothingDiscarded]
      rfl
  | false =>
      cases step with
      | clear | finalize => rfl
      | setHandler name script =>
          simp only [apply, Session.setHandler, Effect.noting, Buffered.attach,
            Buffered.tokens, Session.held, Sequel.tokens, discarded, made,
            Option.toList_some, List.flatMap_singleton, Handler.tokens,
            List.count_append, List.count_nil]
          omega
      | releaseHandler name =>
          have exchanged :=
            session.handlers.count_flatMap_accept Handler.tokens name
              reply.handler token
          simp only [apply, Session.releaseHandler_eq, Buffered.tokens,
            Session.held, Sequel.tokens, discarded, made, Option.toList_none,
            List.flatMap_nil, List.count_append, List.count_nil]
          omega
      | invokeHandler name =>
          have taken :=
            session.handlers.count_flatMap_erase Handler.tokens name token
          simp only [apply, Session.invokeHandler_eq, Session.held,
            Sequel.tokens_firing, discarded, made, List.count_append,
            List.count_nil]
          omega
      | attachHandler name =>
          have taken :=
            session.handlers.count_flatMap_erase Handler.tokens name token
          have replaced :=
            Registry.count_flatMap_or Handler.tokens
              (session.handlers.get? name) reply.handler token
          simp only [apply, Session.attachHandler_eq, Buffered.tokens,
            Session.held, Sequel.tokens, discarded, made, List.count_append,
            List.count_nil]
          omega
      | setProbe flag =>
          simp only [apply, Session.setProbe, Effect.changing, Buffered.tokens,
            Session.held, Sequel.tokens, discarded, made, Option.toList_some,
            List.flatMap_singleton, Probe.tokens, List.count_append,
            List.count_nil]
          omega
      | releaseProbe name =>
          have exchanged :=
            session.probes.count_flatMap_accept Probe.tokens name reply.probe
              token
          simp only [apply, Session.releaseProbe_eq, Buffered.tokens,
            Session.held, Sequel.tokens, discarded, made, Option.toList_none,
            List.flatMap_nil, List.count_append, List.count_nil]
          omega
      | attachProbe name =>
          have taken :=
            session.probes.count_flatMap_erase Probe.tokens name token
          have replaced :=
            Registry.count_flatMap_or Probe.tokens
              (session.probes.get? name) reply.probe token
          simp only [apply, Session.attachProbe_eq, Buffered.tokens,
            Session.held, Sequel.tokens, discarded, made, List.count_append,
            List.count_nil]
          omega
      | relocate slot =>
          have moved := settled.relocate_eq session.nextId
          change
            (Buffered.blank session.nextId : Response).tokens.count token +
                session.held.count token +
                (reply.relocate session.nextId).value.1.tokens.count token +
                0 =
              reply.tokens.count token + session.held.count token + 0
          rw [Buffered.tokens_blank, List.count_nil, moved]
          omega
      | _ => contradiction

end Step

end Reply
