import Reply.Proofs.Session.Content
import Reply.Proofs.Session.Run

namespace Reply

/-!
# What happens to a session

A step changes one store, one count or the flags of a session, and work around it
only puts replies into slots and takes them out.  What each of these changes keeps
is kept by every task, every command and every machine that comes to rest.
-/

/-! ## What steps change -/

/-- A step changes one part of a session: flags, a store or a count. -/
inductive Session.Touched (session : Session) : Session → Prop
  | flagged (flags : Flags) :
      Session.Touched session { session with flags := flags }
  | numbered :
      Session.Touched session
        { session with nextSerial := session.nextSerial + 1 }
  | grown : Session.Touched session session.grown
  | releasedHandler (name : String) (handler : Handler) :
      Session.Touched session
        { session with handlers := session.handlers.put name handler }
  | takenHandler (name : String) :
      Session.Touched session
        { session with handlers := session.handlers.erase name }
  | releasedProbe (name : String) (probe : Probe) :
      Session.Touched session
        { session with probes := session.probes.put name probe }
  | takenProbe (name : String) :
      Session.Touched session
        { session with probes := session.probes.erase name }

/-- Every step changes at most one part of the session. -/
theorem Step.touched
    (step : Step)
    (session : Session)
    (reply : Response) :
    session.Touched (step.apply session reply).session := by
  have same : session.Touched session := .flagged session.flags
  cases content : step.isContent with
  | true =>
      obtain ⟨flags, left⟩ := (step.onContent session reply content).session
      rw [left]
      exact .flagged flags
  | false =>
      cases step with
      | setHandler | setProbe => exact .numbered
      | clear | finalize => exact same
      | relocate slot => exact .grown
      | releaseHandler name =>
          rw [apply, Session.releaseHandler_eq]
          cases reply.handler with
          | none => exact same
          | some handler => exact .releasedHandler name handler
      | invokeHandler name =>
          rw [apply, Session.invokeHandler_eq]
          exact .takenHandler name
      | attachHandler name =>
          rw [apply, Session.attachHandler_eq]
          exact .takenHandler name
      | releaseProbe name =>
          rw [apply, Session.releaseProbe_eq]
          cases reply.probe with
          | none => exact same
          | some probe => exact .releasedProbe name probe
      | attachProbe name =>
          rw [apply, Session.attachProbe_eq]
          exact .takenProbe name
      | _ => contradiction

/-- A touched session has the same slots and counts no identity back. -/
theorem Session.Touched.frame
    {before after : Session}
    (touched : before.Touched after) :
    after.slots = before.slots ∧ before.nextId ≤ after.nextId := by
  cases touched with
  | grown => exact ⟨rfl, Nat.le_succ _⟩
  | flagged | numbered | releasedHandler | takenHandler | releasedProbe
  | takenProbe =>
      exact ⟨rfl, Nat.le_refl _⟩

/-- A step leaves the slots alone and counts no identity back. -/
theorem Step.frame_apply
    (step : Step)
    (session : Session)
    (reply : Response) :
    (step.apply session reply).session.slots = session.slots ∧
      session.nextId ≤ (step.apply session reply).session.nextId :=
  (step.touched session reply).frame

/-- The reply that a sequel carries off. -/
def Sequel.replies : Sequel → List Response
  | .store _ reply => [reply]
  | _ => []

/-- A handler that fires carries off no reply. -/
theorem Sequel.replies_firing (handler? : Option Handler) :
    (firing handler?).replies = [] := by
  cases handler? with
  | none => rfl
  | some handler => rfl

namespace Machine

theorem fire_keeps
    (machine : Machine)
    (handler : Handler) :
    (machine.fire handler).session = machine.session ∧
      (machine.fire handler).hand = machine.hand := by
  unfold fire
  split <;> exact ⟨rfl, rfl⟩

/-- Following a sequel leaves the session and takes its reply in hand. -/
theorem follow_keeps
    (machine : Machine)
    (sequel : Sequel) :
    (machine.follow sequel).session = machine.session ∧
      (machine.follow sequel).hand = sequel.replies ++ machine.hand := by
  cases sequel with
  | fire handler => exact machine.fire_keeps handler
  | nothing | finalize | store => exact ⟨rfl, rfl⟩

/-- Finalizing leaves the session and all but the reply on top. -/
theorem finalize_keeps
    {machine : Machine}
    {reply : Response}
    {below : List Response}
    (held : machine.hand = reply :: below) :
    machine.finalize.session = machine.session ∧
      machine.finalize.hand = reply.finalize.value.1 :: below := by
  unfold finalize
  rw [held]
  dsimp only
  split
  · exact fire_keeps _ _
  · exact ⟨rfl, rfl⟩

end Machine

/--
How a session comes from another: steps change its stores and counts, and replies
are put into slots and taken out.
-/
inductive Session.Changes (before : Session) : Session → Prop
  | refl : Session.Changes before before
  | touched
      {between after : Session}
      (earlier : Session.Changes before between)
      (touched : between.Touched after) :
      Session.Changes before after
  | stored
      {between : Session}
      (earlier : Session.Changes before between)
      (slot : String)
      (holding : Holding) :
      Session.Changes before
        { between with slots := between.slots.put slot holding }
  | emptied
      {between : Session}
      (earlier : Session.Changes before between)
      (slot : String) :
      Session.Changes before (between.emptied slot)

namespace Session

theorem Changes.trans
    {before between after : Session}
    (earlier : before.Changes between)
    (later : between.Changes after) :
    before.Changes after := by
  induction later with
  | refl => exact earlier
  | touched _ touched inductionHypothesis =>
      exact inductionHypothesis.touched touched
  | stored _ slot holding inductionHypothesis =>
      exact inductionHypothesis.stored slot holding
  | emptied _ slot inductionHypothesis =>
      exact inductionHypothesis.emptied slot

/-- Asking a step of the reply in a slot empties the slot and takes the step. -/
theorem session_ask
    (session : Session)
    (slot : String)
    (holding : Holding)
    (step : Step) :
    (session.ask slot holding step).2.session =
      (step.apply (session.emptied slot) holding.reply).session := by
  unfold ask
  dsimp only
  split
  · rfl
  · exact (Machine.follow_keeps _ _).1

end Session

theorem Machine.changes_perform
    (machine : Machine)
    (task : Task) :
    machine.session.Changes (machine.perform task).session := by
  cases task with
  | finalize =>
      cases hand : machine.hand with
      | nil =>
          simp only [perform, finalize, hand]
          exact .refl
      | cons reply below =>
          rw [perform, (finalize_keeps hand).1]
          exact .refl
  | play handler script =>
      cases script with
      | nil => exact .refl
      | cons line rest =>
          rcases line with ⟨word, step⟩
          simp only [perform, play]
          split
          · exact .refl
          · next reply below hand =>
              rw [(follow_keeps _ _).1]
              exact .touched .refl (step.touched machine.session reply)
  | report handler word answer => exact .refl
  | shelve slot guarded =>
      simp only [perform, shelve]
      split
      · exact .refl
      · next reply below hand =>
          split <;> exact .stored .refl slot ⟨reply, guarded⟩
  | discard => exact .refl

theorem Action.changes_start
    (session : Session)
    (slot : String)
    (holding : Holding)
    (action : Action) :
    session.Changes (action.start session slot holding).2.session := by
  have emptied : session.Changes (session.emptied slot) := .emptied .refl slot
  cases action with
  | drop =>
      simp only [start, Session.letGo]
      split <;> exact emptied
  | move target => exact emptied
  | guard | release | deliver =>
      simp only [start]
      split
      · exact .refl
      · exact emptied
  | unguard =>
      simp only [start]
      split
      · exact emptied.touched .grown
      · exact .refl
  | ask step =>
      rw [start, Session.session_ask]
      exact emptied.touched (step.touched _ holding.reply)

theorem Command.changes_start
    (session : Session)
    (command : Command) :
    session.Changes (command.start session).2.session := by
  cases command with
  | create slot => exact .touched .refl .grown
  | adopt slot message => exact .touched .refl .grown
  | act slot action =>
      simp only [start]
      split
      · next holding present => exact action.changes_start session slot holding
      · exact .refl

theorem Machine.changes_run (machine : Machine) :
    machine.session.Changes machine.run.session := by
  induction machine using Machine.run.induct with
  | case1 machine next stepped lighter inductionHypothesis =>
      rw [run_of_step? stepped]
      obtain ⟨task, later, planned, rfl⟩ := exists_of_step? stepped
      exact
        (changes_perform { machine with tasks := later } task).trans
          inductionHypothesis
  | case2 machine resting =>
      rw [run_of_step?_none resting]
      exact .refl

theorem Session.changes_perform
    (session : Session)
    (command : Command) :
    session.Changes (session.perform command).session :=
  (command.changes_start session).trans (Machine.changes_run _)

/-! ## Identities given out -/

/-- Changes count no identity back. -/
theorem Session.Changes.nextId_le
    {before after : Session}
    (changes : before.Changes after) :
    before.nextId ≤ after.nextId := by
  induction changes with
  | refl => exact Nat.le_refl _
  | touched _ touched inductionHypothesis =>
      exact Nat.le_trans inductionHypothesis touched.frame.2
  | stored _ slot holding inductionHypothesis => exact inductionHypothesis
  | emptied _ slot inductionHypothesis => exact inductionHypothesis

end Reply
