import Reply.Proofs.Registry
import Reply.Proofs.Session.Changes

namespace Reply

/-!
# What holds of every reply

A reply is alive while it is in a slot or in hand.  A property that new replies
have and that no step and no finalizing takes away holds of all live replies at
every boundary of a run, those seen inside a handler's script included, and of
every reply that a handler is fired on.
-/

/-- The replies in slots. -/
def Session.replies (session : Session) : List Response :=
  session.slots.contents.map Holding.reply

/-- The replies that are alive: those in hand and those in slots. -/
def Machine.replies (machine : Machine) : List Response :=
  machine.hand ++ machine.session.replies

/-- The replies that a step on one reply leaves. -/
def Effect.replies (effect : Effect) : List Response :=
  effect.reply :: effect.sequel.replies

/--
A property of replies, given how many identities are out, that new replies have
and that nothing done to a reply takes away.
-/
structure Lasting (property : Nat → Response → Prop) : Prop where
  later :
    ∀ {count more : Nat} {reply : Response},
      count ≤ more → property count reply → property more reply
  made :
    ∀ (count : Nat) (message : Message String),
      property (count + 1) (.ofMessage count message)
  finalized :
    ∀ {count : Nat} {reply : Response},
      property count reply → property count reply.finalize.value.1
  stepped :
    ∀ {session : Session} {reply : Response} (step : Step),
      property session.nextId reply →
        ∀ left ∈ (step.apply session reply).replies,
          property (step.apply session reply).session.nextId left

/-! ## One property, all live replies -/

/-- The property holds of every reply in slots. -/
def Session.Every
    (property : Nat → Response → Prop)
    (session : Session) :
    Prop :=
  ∀ reply ∈ session.replies, property session.nextId reply

/-- The property holds of every reply in hand and in slots. -/
def Machine.Every
    (property : Nat → Response → Prop)
    (machine : Machine) :
    Prop :=
  ∀ reply ∈ machine.replies, property machine.session.nextId reply

/-- The reply that a handler is fired on here, if one is. -/
def Event.reply? : Event → Option Response
  | .fired _ _ reply _ => some reply
  | _ => none

/-- The property holds of every reply that a handler was fired on. -/
def Machine.EveryFired
    (property : Nat → Response → Prop)
    (machine : Machine) :
    Prop :=
  ∀ event ∈ machine.trace,
    ∀ reply, event.reply? = some reply →
      property machine.session.nextId reply

namespace Lasting

variable {property : Nat → Response → Prop}

theorem emptied
    {session : Session}
    (every : session.Every property)
    (slot : String) :
    (session.emptied slot).Every property := by
  intro reply member
  apply every
  obtain ⟨holding, inSlots, rfl⟩ := List.mem_map.mp member
  exact
    List.mem_map.mpr
      ⟨holding, Registry.contents_erase_subset _ slot inSlots, rfl⟩

theorem found
    {session : Session}
    (every : session.Every property)
    {slot : String}
    {holding : Holding}
    (present : session.slots.get? slot = some holding) :
    property session.nextId holding.reply :=
  every _
    (List.mem_map.mpr
      ⟨holding, Registry.mem_contents_of_get? present, rfl⟩)

/-- A step leaves every live reply with the property. -/
theorem afterStep
    (lasting : Lasting property)
    {machine : Machine}
    {session : Session}
    {reply : Response}
    {step : Step}
    (below : List Response)
    (left : machine.session = (step.apply session reply).session)
    (hand :
      machine.hand ⊆ (step.apply session reply).replies ++ below)
    (own : property session.nextId reply)
    (under : ∀ other ∈ below, property session.nextId other)
    (every : session.Every property) :
    machine.Every property := by
  obtain ⟨slots, counted⟩ := step.frame_apply session reply
  intro other member
  rw [Machine.replies, left, Session.replies, slots] at member
  rw [left]
  rcases List.mem_append.mp member with inHand | inSlots
  · rcases List.mem_append.mp (hand inHand) with fromStep | inBelow
    · exact lasting.stepped step own other fromStep
    · exact lasting.later counted (under other inBelow)
  · exact lasting.later counted (every other inSlots)

/-- Shelving keeps the property of every live reply. -/
theorem shelve
    {machine : Machine}
    (every : machine.Every property)
    (slot : String)
    (guarded : Bool) :
    (machine.shelve slot guarded).Every property := by
  rw [Machine.shelve]
  split
  · exact every
  · next reply below held =>
      have stored :
          ∀ other ∈
              ({ machine.session with
                  slots :=
                    machine.session.slots.put slot ⟨reply, guarded⟩ } :
                Session).replies,
            property machine.session.nextId other := by
        intro other member
        obtain ⟨holding, inSlots, rfl⟩ := List.mem_map.mp member
        apply every
        rw [Machine.replies, held]
        rcases Registry.mem_contents_put inSlots with rfl | kept
        · exact List.mem_cons_self
        · exact
            List.mem_append_right _ (List.mem_map.mpr ⟨holding, kept, rfl⟩)
      have inHand :
          ∀ other ∈ below, property machine.session.nextId other := by
        intro other member
        apply every
        rw [Machine.replies, held]
        exact List.mem_append_left _ (List.mem_cons_of_mem _ member)
      dsimp only
      split
      · next former present =>
          intro other member
          rw [Machine.replies] at member
          simp only [List.cons_append, List.mem_cons,
            List.mem_append] at member
          rcases member with rfl | inBelow | inSlots
          · have inSlots :
                ∀ other ∈ machine.session.replies,
                  property machine.session.nextId other := by
              intro other member
              exact every other (List.mem_append_right _ member)
            exact found inSlots present
          · exact inHand other inBelow
          · exact stored other inSlots
      · intro other member
        rcases List.mem_append.mp member with inBelow | inSlots
        · exact inHand other inBelow
        · exact stored other inSlots

/-- Carrying out a task keeps the property of every live reply. -/
theorem perform
    (lasting : Lasting property)
    {machine : Machine}
    (every : machine.Every property)
    (task : Task) :
    (machine.perform task).Every property := by
  cases task with
  | finalize =>
      cases held : machine.hand with
      | nil =>
          simp only [Machine.perform, Machine.finalize, held]
          exact every
      | cons reply below =>
          obtain ⟨session, hand⟩ := Machine.finalize_keeps held
          intro other member
          simp only [Machine.perform, Machine.replies, hand, session,
            List.cons_append, List.mem_cons] at member
          simp only [Machine.perform, session]
          simp only [Machine.Every, Machine.replies, held,
            List.cons_append, List.forall_mem_cons] at every
          rcases member with rfl | kept
          · exact lasting.finalized every.1
          · exact every.2 other kept
  | play handler script =>
      cases script with
      | nil => exact every
      | cons line rest =>
          rcases line with ⟨word, step⟩
          cases held : machine.hand with
          | nil =>
              simp only [Machine.perform, Machine.play, held]
              exact every
          | cons reply below =>
              simp only [Machine.Every, Machine.replies, held,
                List.cons_append, List.forall_mem_cons,
                List.forall_mem_append] at every
              obtain ⟨own, under, inSlots⟩ := every
              simp only [Machine.perform, Machine.play, held]
              obtain ⟨session, hand⟩ :=
                Machine.follow_keeps
                  (({ session := (step.apply machine.session reply).session
                      hand :=
                        (step.apply machine.session reply).reply :: below
                      tasks :=
                        .report handler word
                            (step.apply machine.session reply).answer ::
                          .play handler rest :: machine.tasks
                      trace := machine.trace } : Machine).note
                    (step.apply machine.session reply).notes)
                  (step.apply machine.session reply).sequel
              refine lasting.afterStep below session ?_ own under inSlots
              rw [hand]
              simp [Effect.replies, Machine.note]
  | report handler word answer => exact every
  | shelve slot guarded => exact shelve every slot guarded
  | discard =>
      intro other member
      apply every
      rcases List.mem_append.mp member with inTail | inSlots
      · exact List.mem_append_left _ (List.mem_of_mem_tail inTail)
      · exact List.mem_append_right _ inSlots

/-- A machine that holds one reply beside a session has only those replies. -/
theorem holding
    {session : Session}
    {reply : Response}
    (own : property session.nextId reply)
    (every : session.Every property)
    (tasks : List Task) :
    (Machine.holding session reply tasks).Every property := by
  intro other member
  rcases List.mem_cons.mp member with rfl | inSlots
  · exact own
  · exact every other inSlots

theorem grown
    (lasting : Lasting property)
    {session : Session}
    (every : session.Every property) :
    session.grown.Every property := by
  intro other member
  exact lasting.later (Nat.le_succ _) (every other member)

/-- A relocated reply has the property when its successor's identity is out. -/
theorem relocated
    (lasting : Lasting property)
    {session : Session}
    {reply : Response}
    (own : property session.nextId reply) :
    property (session.nextId + 1)
      (reply.relocate session.nextId).value.1 :=
  lasting.stepped (.relocate "") own _
    (List.mem_cons_of_mem _ (List.mem_singleton.mpr rfl))

/-- Beginning an action keeps the property of every live reply. -/
theorem startAction
    (lasting : Lasting property)
    {session : Session}
    (every : session.Every property)
    {slot : String}
    {content : Holding}
    (present : session.slots.get? slot = some content)
    (action : Action) :
    (action.start session slot content).2.Every property := by
  have own : property (session.emptied slot).nextId content.reply :=
    found every present
  have others := emptied every slot
  cases action with
  | drop =>
      simp only [Action.start, Session.letGo]
      split
      · exact holding own others _
      · exact others
  | move target => exact holding own others _
  | guard =>
      simp only [Action.start]
      split
      · exact every
      · exact holding own others _
  | unguard =>
      simp only [Action.start]
      split
      · exact
          holding (lasting.relocated own) (lasting.grown others)
            [.shelve slot false]
      · exact every
  | release | deliver =>
      simp only [Action.start]
      split
      · exact every
      · exact others
  | ask step =>
      simp only [Action.start, Session.ask]
      split
      · next target moved carried =>
          refine lasting.afterStep [] rfl ?_ own (by simp) others
          simp [Effect.replies, Sequel.replies, carried, Machine.note]
      · obtain ⟨left, hand⟩ :=
          Machine.follow_keeps
            ((Machine.holding
                (step.apply (session.emptied slot) content.reply).session
                (step.apply (session.emptied slot) content.reply).reply
                [.shelve slot content.guarded]).note
              (step.apply (session.emptied slot) content.reply).notes)
            (step.apply (session.emptied slot) content.reply).sequel
        refine lasting.afterStep [] left ?_ own (by simp) others
        rw [hand]
        simp [Effect.replies, Machine.note, Machine.holding]

/-- Beginning a command keeps the property of every live reply. -/
theorem start
    (lasting : Lasting property)
    {session : Session}
    (every : session.Every property)
    (command : Command) :
    (command.start session).2.Every property := by
  cases command with
  | create slot =>
      exact holding (lasting.made _ _) (lasting.grown every) _
  | adopt slot message =>
      exact holding (lasting.made _ _) (lasting.grown every) _
  | act slot action =>
      simp only [Command.start]
      split
      · next content present => exact lasting.startAction every present action
      · exact every

/-! ### Replies that handlers were fired on -/

theorem note
    {machine : Machine}
    (fired : machine.EveryFired property)
    (notes : List Note) :
    (machine.note notes).EveryFired property := by
  intro event member reply concerns
  rcases List.mem_append.mp member with earlier | noted
  · exact fired event earlier reply concerns
  · obtain ⟨note, -, rfl⟩ := List.mem_map.mp noted
    contradiction

theorem fire
    {machine : Machine}
    (fired : machine.EveryFired property)
    (top : ∀ reply ∈ machine.hand, property machine.session.nextId reply)
    (handler : Handler) :
    (machine.fire handler).EveryFired property := by
  rw [Machine.fire]
  split
  · exact fired
  · next reply below hand =>
      intro event member other concerns
      rcases List.mem_append.mp member with earlier | now
      · exact fired event earlier other concerns
      · rw [List.mem_singleton.mp now] at concerns
        rw [← Option.some.inj concerns]
        exact top reply (hand ▸ List.mem_cons_self)

theorem follow
    {machine : Machine}
    (fired : machine.EveryFired property)
    (top : ∀ reply ∈ machine.hand, property machine.session.nextId reply)
    (sequel : Sequel) :
    (machine.follow sequel).EveryFired property := by
  cases sequel with
  | fire handler => exact fire fired top handler
  | nothing | finalize | store => exact fired

/-- What a step in hand sets going fires handlers on replies with the property. -/
theorem firedByStep
    (lasting : Lasting property)
    {machine : Machine}
    {session : Session}
    {reply : Response}
    {below : List Response}
    {step : Step}
    (left : machine.session = (step.apply session reply).session)
    (hand : machine.hand = (step.apply session reply).reply :: below)
    (own : property session.nextId reply)
    (under : ∀ other ∈ below, property session.nextId other)
    (fired :
      ∀ event ∈ machine.trace, ∀ other, event.reply? = some other →
        property session.nextId other) :
    ((machine.note (step.apply session reply).notes).follow
      (step.apply session reply).sequel).EveryFired property := by
  have counted := (step.frame_apply session reply).2
  apply follow
  · apply note
    intro event member other concerns
    rw [left]
    exact lasting.later counted (fired event member other concerns)
  · intro other member
    simp only [Machine.note, hand, List.mem_cons] at member
    simp only [Machine.note, left]
    rcases member with rfl | inBelow
    · exact lasting.stepped step own _ List.mem_cons_self
    · exact lasting.later counted (under other inBelow)

/-- Carrying out a task fires handlers on replies with the property. -/
theorem fired_perform
    (lasting : Lasting property)
    {machine : Machine}
    (every : machine.Every property)
    (fired : machine.EveryFired property)
    (task : Task) :
    (machine.perform task).EveryFired property := by
  cases task with
  | finalize =>
      simp only [Machine.perform, Machine.finalize]
      split
      · exact fired
      · next reply below hand =>
          have own : property machine.session.nextId reply :=
            every reply (by simp [Machine.replies, hand])
          have finished := note fired reply.finalize.notes
          split
          · next handler due =>
              apply fire
              · exact finished
              · intro other member
                rcases List.mem_cons.mp member with rfl | inBelow
                · exact lasting.finalized own
                · exact every other (by simp [Machine.replies, hand, inBelow])
          · exact finished
  | play handler script =>
      cases script with
      | nil => exact fired
      | cons line rest =>
          rcases line with ⟨word, step⟩
          simp only [Machine.perform, Machine.play]
          split
          · exact fired
          · next reply below hand =>
              refine lasting.firedByStep rfl rfl ?_ ?_ fired
              · exact every reply (by simp [Machine.replies, hand])
              · intro other inBelow
                exact every other (by simp [Machine.replies, hand, inBelow])
  | report handler word answer =>
      intro event member reply concerns
      rcases List.mem_append.mp member with earlier | now
      · exact fired event earlier reply concerns
      · rw [List.mem_singleton.mp now] at concerns
        contradiction
  | shelve slot guarded =>
      simp only [Machine.perform, Machine.shelve]
      split
      · exact fired
      · split <;> exact fired
  | discard => exact fired

/-- Beginning a command fires handlers on replies with the property. -/
theorem fired_start
    (lasting : Lasting property)
    {session : Session}
    (every : session.Every property)
    (command : Command) :
    (command.start session).2.EveryFired property := by
  have silent :
      ∀ (left : Session) (reply : Response) (tasks : List Task),
        (Machine.holding left reply tasks).EveryFired property := by
    intro left reply tasks event member
    contradiction
  have rested : ∀ left : Session, (Machine.atRest left).EveryFired property := by
    intro left event member
    contradiction
  cases command with
  | create slot => exact silent _ _ _
  | adopt slot message => exact silent _ _ _
  | act slot action =>
      simp only [Command.start]
      split
      · next content present =>
          cases action with
          | drop =>
              simp only [Action.start, Session.letGo]
              split
              · exact silent _ _ _
              · exact rested _
          | move target => exact silent _ _ _
          | guard =>
              simp only [Action.start]
              split
              · exact rested _
              · exact silent _ _ _
          | unguard =>
              simp only [Action.start]
              split
              · exact note (silent _ _ _) _
              · exact rested _
          | release =>
              simp only [Action.start]
              split <;> exact rested _
          | deliver =>
              simp only [Action.start]
              split
              · exact rested _
              · exact note (rested _) _
          | ask step =>
              simp only [Action.start, Session.ask]
              split
              · refine note ?_ _
                intro event member
                contradiction
              · refine
                  lasting.firedByStep rfl rfl
                    (found every present) (by simp) ?_
                intro event member
                contradiction
      · exact rested _

/-- A machine that came to rest has only replies with the property. -/
theorem rested
    (lasting : Lasting property)
    {machine : Machine}
    (every : machine.Every property)
    (fired : machine.EveryFired property) :
    machine.run.Every property ∧ machine.run.EveryFired property := by
  induction machine using Machine.run.induct with
  | case1 machine next stepped lighter inductionHypothesis =>
      rw [Machine.run_of_step? stepped]
      obtain ⟨task, later, planned, rfl⟩ := Machine.exists_of_step? stepped
      apply inductionHypothesis
      · refine lasting.perform ?_ task
        exact every
      · refine lasting.fired_perform ?_ ?_ task
        · exact every
        · exact fired
  | case2 machine resting =>
      rw [Machine.run_of_step?_none resting]
      exact ⟨every, fired⟩

/-- A command leaves, and fires handlers on, only replies with the property. -/
theorem command
    (lasting : Lasting property)
    {session : Session}
    (every : session.Every property)
    (command : Command) :
    (session.perform command).session.Every property ∧
      ∀ event ∈ (session.perform command).trace,
        ∀ reply, event.reply? = some reply →
          property (session.perform command).session.nextId reply := by
  obtain ⟨last, fired⟩ :=
    lasting.rested (lasting.start every command)
      (lasting.fired_start every command)
  exact
    ⟨fun reply member => last reply (List.mem_append_right _ member), fired⟩

/-- A turn leaves only replies with the property. -/
theorem after
    (lasting : Lasting property)
    {machine : Machine}
    (every : machine.Every property)
    {turn : Turn}
    (follows : turn.Follows machine) :
    turn.after.Every property := by
  cases follows with
  | order rested command =>
      refine lasting.start ?_ command
      exact fun reply member => every reply (List.mem_append_right _ member)
  | work planned =>
      refine lasting.perform ?_ _
      exact every

/-- At every boundary of a run every live reply has the property. -/
theorem run
    (lasting : Lasting property)
    {turns : List Turn}
    {machine : Machine}
    (run : Run turns machine) :
    machine.Every property := by
  induction run with
  | start =>
      intro reply member
      contradiction
  | order run rested command inductionHypothesis =>
      exact lasting.after inductionHypothesis (.order rested command)
  | work run planned inductionHypothesis =>
      exact lasting.after inductionHypothesis (.work planned)

/-- One more turn adds events that fired on replies with the property. -/
theorem fired_append
    (lasting : Lasting property)
    {turns : List Turn}
    (turn : Turn)
    {count : Nat}
    (earlier :
      ∀ event ∈ eventsOf turns, ∀ reply, event.reply? = some reply →
        property count reply)
    (counted : count ≤ turn.after.session.nextId)
    (fired : turn.after.EveryFired property) :
    ∀ event ∈ eventsOf (turns ++ [turn]), ∀ reply, event.reply? = some reply →
      property turn.after.session.nextId reply := by
  intro event member reply concerns
  rw [eventsOf, List.flatMap_append, List.flatMap_singleton] at member
  rcases List.mem_append.mp member with before | now
  · exact lasting.later counted (earlier event before reply concerns)
  · exact fired event (List.mem_of_mem_drop now) reply concerns

/-- In every run handlers are fired only on replies with the property. -/
theorem run_fired
    (lasting : Lasting property)
    {turns : List Turn}
    {machine : Machine}
    (run : Run turns machine) :
    machine.EveryFired property ∧
      ∀ event ∈ eventsOf turns, ∀ reply, event.reply? = some reply →
        property machine.session.nextId reply := by
  induction run with
  | start =>
      constructor <;>
        intro event member <;>
        contradiction
  | @order turns machine run rested command inductionHypothesis =>
      have every : machine.session.Every property := by
        intro reply member
        exact lasting.run run reply (List.mem_append_right _ member)
      have fired := lasting.fired_start every command
      exact
        ⟨fired,
          lasting.fired_append (.order machine.session command)
            inductionHypothesis.2 (command.changes_start _).nextId_le fired⟩
  | @work turns machine run task later planned inductionHypothesis =>
      have every : ({ machine with tasks := later } : Machine).Every property := by
        intro reply member
        exact lasting.run run reply member
      have fired := lasting.fired_perform every inductionHypothesis.1 task
      have changes := { machine with tasks := later }.changes_perform task
      exact
        ⟨fired,
          lasting.fired_append (.work { machine with tasks := later } task)
            inductionHypothesis.2 changes.nextId_le fired⟩

end Lasting

end Reply
