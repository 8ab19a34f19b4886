import Reply.Session.Machine

namespace Reply

/-!
# Commands

A command acts on a slot as a whole or asks a step of the reply in it.  While a
step is carried out the slot is empty; its content goes back when all that the
step set going has been done.  Only then is a reply that the step moved out put
into its own slot.
-/

/-- What can be asked of the content of a slot. -/
inductive Action
  | drop
  | move (target : String)
  | guard
  | unguard
  | release
  | deliver
  | ask (step : Step)

/-- What a session can be asked to do. -/
inductive Command
  | create (slot : String)
  | adopt (slot : String) (message : Message String)
  | act (slot : String) (action : Action)

/-- What a command left behind. -/
structure Outcome where
  session : Session
  answer : Answer
  trace : List Event

namespace Machine

/-- A machine with nothing to do. -/
def atRest (session : Session) : Machine :=
  ⟨session, [], [], []⟩

/-- A machine with one reply in hand. -/
def holding
    (session : Session)
    (reply : Response)
    (tasks : List Task) :
    Machine :=
  ⟨session, [reply], tasks, []⟩

end Machine

namespace Session

/-- The session with a slot emptied. -/
def emptied (session : Session) (slot : String) : Session :=
  { session with slots := session.slots.erase slot }

/-- The session after one more reply was made. -/
def grown (session : Session) : Session :=
  { session with nextId := session.nextId + 1 }

/-- Let the content of a slot go. -/
def letGo
    (session : Session)
    (slot : String)
    (holding : Holding) :
    Machine :=
  if holding.guarded then
    .holding (session.emptied slot) holding.reply [.finalize, .discard]
  else
    .atRest (session.emptied slot)

/-- Ask a step of the reply in a slot. -/
def ask
    (session : Session)
    (slot : String)
    (holding : Holding)
    (step : Step) :
    Answer × Machine :=
  let effect := step.apply (session.emptied slot) holding.reply
  let back : Task := .shelve slot holding.guarded
  match effect.sequel with
  | .store target moved =>
      (effect.answer,
        ({ session := effect.session
           hand := [effect.reply, moved]
           tasks := [back, .shelve target false]
           trace := [] } : Machine).note effect.notes)
  | sequel =>
      (effect.answer,
        ((Machine.holding effect.session effect.reply [back]).note
          effect.notes).follow sequel)

end Session

/-- The answer to an action on the content of a slot, and the work left. -/
def Action.start
    (session : Session)
    (slot : String)
    (holding : Holding) :
    Action → Answer × Machine
  | .drop => (.done, session.letGo slot holding)
  | .move target =>
      (.done,
        .holding (session.emptied slot) holding.reply
          [.shelve target holding.guarded])
  | .guard =>
      if holding.guarded then
        (.refused .unsupported, .atRest session)
      else
        (.done,
          .holding (session.emptied slot) holding.reply [.shelve slot true])
  | .unguard =>
      if holding.guarded then
        let outcome := holding.reply.relocate session.nextId
        (.done,
          (Machine.holding (session.emptied slot).grown outcome.value.1
            [.shelve slot false]).note outcome.notes)
      else
        (.refused .unsupported, .atRest session)
  | .release =>
      if holding.guarded then
        (.refused .unsupported, .atRest session)
      else
        (.message holding.reply.message, .atRest (session.emptied slot))
  | .deliver =>
      if holding.guarded then
        (.refused .unsupported, .atRest session)
      else
        let outcome := holding.reply.deliver
        (.message outcome.value,
          (Machine.atRest (session.emptied slot)).note outcome.notes)
  | .ask step => session.ask slot holding step

/-- The answer to a command, and a machine with the work it calls for. -/
def Command.start (session : Session) : Command → Answer × Machine
  | .create slot =>
      (.done,
        .holding session.grown (.blank session.nextId) [.shelve slot false])
  | .adopt slot message =>
      (.done,
        .holding session.grown
          (.ofMessage session.nextId message) [.shelve slot false])
  | .act slot action =>
      match session.slots.get? slot with
      | some holding => action.start session slot holding
      | none => (.refused .noSlot, .atRest session)

namespace Session

/-- Carry out a command and all that it sets going. -/
def perform (session : Session) (command : Command) : Outcome :=
  let started := command.start session
  let rest := started.2.run
  ⟨rest.session, started.1, rest.trace⟩

/-- Carry out commands one after the other. -/
def performAll (session : Session) : List Command → List Outcome
  | [] => []
  | command :: rest =>
      let outcome := session.perform command
      outcome :: outcome.session.performAll rest

end Session

end Reply
