import Mathlib.Data.List.Induction
import Reply.Session.Command

namespace Reply

/-!
# Runs of a session

A run goes from the initial session through commands and the tasks that they
call for, one turn at a time.  Every machine that a run comes to is a boundary
at which something can be observed: between commands, between the steps of a
script, while a handler plays or a guarded reply is let go.  What holds of every
run holds of all that performing commands does.
-/

/-- One thing that is carried out: a command on a session, or a planned task. -/
inductive Turn
  | order (session : Session) (command : Command)
  | work (machine : Machine) (task : Task)

namespace Turn

/-- The machine a turn starts from; the task to carry out is off its plan. -/
def before : Turn → Machine
  | .order session _ => .atRest session
  | .work machine _ => machine

/-- The machine a turn leaves. -/
def after : Turn → Machine
  | .order session command => (command.start session).2
  | .work machine task => machine.perform task

/-- What a turn adds to the trace. -/
def events (turn : Turn) : List Event :=
  turn.after.trace.drop turn.before.trace.length

end Turn

/-- The turns from the initial session to a machine, in order. -/
inductive Run : List Turn → Machine → Prop
  | start : Run [] (.atRest .initial)
  | order
      {turns : List Turn}
      {machine : Machine}
      (run : Run turns machine)
      (rested : machine.tasks = [])
      (command : Command) :
      Run (turns ++ [.order machine.session command])
        (command.start machine.session).2
  | work
      {turns : List Turn}
      {machine : Machine}
      (run : Run turns machine)
      {task : Task}
      {later : List Task}
      (planned : machine.tasks = task :: later) :
      Run (turns ++ [.work { machine with tasks := later } task])
        ({ machine with tasks := later }.perform task)

/-- The events of turns, in order. -/
def eventsOf (turns : List Turn) : List Event :=
  turns.flatMap Turn.events

/-! ## The next task -/

namespace Machine

theorem step?_of_cons
    {machine : Machine}
    {task : Task}
    {later : List Task}
    (planned : machine.tasks = task :: later) :
    machine.step? = some ({ machine with tasks := later }.perform task) := by
  rw [step?, planned]

/-- What a machine carries out was planned. -/
theorem exists_of_step?
    {machine next : Machine}
    (stepped : machine.step? = some next) :
    ∃ task later,
      machine.tasks = task :: later ∧
        { machine with tasks := later }.perform task = next := by
  unfold step? at stepped
  split at stepped
  · contradiction
  · next task later planned =>
      exact ⟨task, later, planned, Option.some.inj stepped⟩

/-- A machine rests if and only if nothing is planned. -/
theorem step?_eq_none_iff {machine : Machine} :
    machine.step? = none ↔ machine.tasks = [] := by
  simp only [step?]
  split
  · next empty => exact ⟨fun _ => empty, fun _ => rfl⟩
  · next task later planned => simp [planned]

end Machine

/-! ## Traces only grow -/

namespace Machine

theorem trace_prefix_fire
    (machine : Machine)
    (handler : Handler) :
    machine.trace <+: (machine.fire handler).trace := by
  simp only [fire]
  split
  · exact List.prefix_refl _
  · exact List.prefix_append _ _

theorem trace_prefix_follow
    (machine : Machine)
    (sequel : Sequel) :
    machine.trace <+: (machine.follow sequel).trace := by
  cases sequel with
  | nothing => exact List.prefix_refl _
  | finalize => exact List.prefix_refl _
  | fire handler => exact machine.trace_prefix_fire handler
  | store slot reply => exact List.prefix_refl _

theorem trace_prefix_finalize (machine : Machine) :
    machine.trace <+: machine.finalize.trace := by
  simp only [finalize]
  split
  · exact List.prefix_refl _
  · next reply below held =>
      have noted :
          machine.trace <+:
            ({ machine with hand := reply.finalize.value.1 :: below }.note
              reply.finalize.notes).trace :=
        List.prefix_append _ _
      split
      · exact noted.trans (trace_prefix_fire ..)
      · exact noted

theorem trace_shelve
    (machine : Machine)
    (slot : String)
    (guarded : Bool) :
    (machine.shelve slot guarded).trace = machine.trace := by
  simp only [shelve]
  split
  · rfl
  · split <;> rfl

theorem trace_prefix_play
    (machine : Machine)
    (handler : String)
    (script : Script) :
    machine.trace <+: (machine.play handler script).trace := by
  cases script with
  | nil => exact List.prefix_refl _
  | cons line rest =>
      rcases line with ⟨word, step⟩
      simp only [play]
      split
      · exact List.prefix_refl _
      · refine List.IsPrefix.trans ?_ (trace_prefix_follow _ _)
        exact List.prefix_append _ _

/-- Carrying out a task only adds to the trace. -/
theorem trace_prefix_perform
    (machine : Machine)
    (task : Task) :
    machine.trace <+: (machine.perform task).trace := by
  cases task with
  | finalize => exact machine.trace_prefix_finalize
  | play handler script => exact machine.trace_prefix_play handler script
  | report handler word answer => exact List.prefix_append _ _
  | shelve slot guarded =>
      simp only [perform, machine.trace_shelve slot guarded,
        List.prefix_refl]
  | discard => exact List.prefix_refl _

end Machine

namespace Turn

/-- The trace after a turn is the trace before it and the turn's events. -/
theorem trace_after (turn : Turn) :
    turn.after.trace = turn.before.trace ++ turn.events := by
  have grows : turn.before.trace <+: turn.after.trace := by
    cases turn with
    | order session command => exact List.nil_prefix
    | work machine task => exact machine.trace_prefix_perform task
  obtain ⟨added, shape⟩ := grows
  rw [events, ← shape, List.drop_left]

end Turn

/-! ## Replies in hand and the tasks that put them down -/

/-- How many replies a task puts down. -/
def Task.putsDown : Task → Nat
  | .shelve _ _ => 1
  | .discard => 1
  | _ => 0

namespace Machine

/-- Every reply in hand has one task that will put it down. -/
def Balanced (machine : Machine) : Prop :=
  machine.hand.length = sumOf Task.putsDown machine.tasks

theorem Balanced.fire
    {machine : Machine}
    (balanced : machine.Balanced)
    (handler : Handler) :
    (machine.fire handler).Balanced := by
  rw [Machine.fire]
  split
  · exact balanced
  · simpa [Balanced, Task.putsDown, sumOf] using balanced

/-- Following a sequel takes up only what it plans to put down. -/
theorem Balanced.follow
    {machine : Machine}
    (balanced : machine.Balanced)
    (sequel : Sequel) :
    (machine.follow sequel).Balanced := by
  cases sequel with
  | nothing => exact balanced
  | finalize =>
      simpa [Balanced, Machine.follow, Task.putsDown, sumOf] using balanced
  | fire handler => exact balanced.fire handler
  | store slot reply =>
      unfold Balanced at balanced
      simp only [Balanced, Machine.follow, Task.putsDown, List.length_cons,
        sumOf]
      omega

/-- Carrying out a task puts down what the task stands for. -/
theorem balanced_perform
    {machine : Machine}
    {task : Task}
    (balanced :
      machine.hand.length =
        task.putsDown + sumOf Task.putsDown machine.tasks) :
    (machine.perform task).Balanced := by
  cases task with
  | finalize =>
      simp only [Task.putsDown, Nat.zero_add] at balanced
      simp only [perform, finalize]
      split
      · exact balanced
      · next reply below held =>
          have finished :
              ({ machine with hand := reply.finalize.value.1 :: below }.note
                reply.finalize.notes).Balanced := by
            rw [held] at balanced
            exact balanced
          split
          · exact finished.fire _
          · exact finished
  | play handler script =>
      simp only [Task.putsDown, Nat.zero_add] at balanced
      cases script with
      | nil => exact balanced
      | cons line rest =>
          rcases line with ⟨word, step⟩
          simp only [perform, play]
          split
          · exact balanced
          · next reply below held =>
              apply Balanced.follow
              rw [held] at balanced
              simpa [Balanced, note, Task.putsDown, sumOf] using balanced
  | report handler word answer =>
      simp only [Task.putsDown, Nat.zero_add] at balanced
      exact balanced
  | shelve slot guarded =>
      simp only [Task.putsDown] at balanced
      simp only [perform, shelve]
      split
      · next held =>
          rw [held] at balanced
          simp only [List.length_nil] at balanced
          omega
      · next reply below held =>
          rw [held] at balanced
          simp only [List.length_cons] at balanced
          split
          · simp only [Balanced, Task.putsDown, List.length_cons, sumOf]
            omega
          · simp only [Balanced]
            omega
  | discard =>
      simp only [Task.putsDown] at balanced
      simp only [Balanced, perform, List.length_tail]
      omega

end Machine

/-- A command plans to put down every reply that it takes in hand. -/
theorem Command.balanced_start
    (session : Session)
    (command : Command) :
    (command.start session).2.Balanced := by
  cases command with
  | create slot => rfl
  | adopt slot message => rfl
  | act slot action =>
      simp only [Command.start]
      split
      · next holding found =>
          cases action with
          | ask step =>
              simp only [Action.start, Session.ask]
              split
              · rfl
              · apply Machine.Balanced.follow
                rfl
          | drop =>
              simp only [Action.start, Session.letGo]
              split <;> rfl
          | move target => rfl
          | guard | unguard | release | deliver =>
              simp only [Action.start]
              split <;> rfl
      · rfl

/-- When a balanced machine rests, its hand is empty. -/
theorem Machine.Balanced.hand_eq_nil
    {machine : Machine}
    (balanced : machine.Balanced)
    (rested : machine.tasks = []) :
    machine.hand = [] := by
  rw [Balanced, rested] at balanced
  exact List.length_eq_zero_iff.mp balanced

/-! ## The next turn -/

/-- A turn that a machine may take next: a command at rest, or the next task. -/
inductive Turn.Follows (machine : Machine) : Turn → Prop
  | order
      (rested : machine.tasks = [])
      (command : Command) :
      Follows machine (.order machine.session command)
  | work
      {task : Task}
      {later : List Task}
      (planned : machine.tasks = task :: later) :
      Follows machine (.work { machine with tasks := later } task)

theorem Turn.Follows.session_before
    {turn : Turn}
    {machine : Machine}
    (follows : turn.Follows machine) :
    turn.before.session = machine.session := by
  cases follows <;> rfl

/-- A turn leaves each reply in hand one task that will put it down. -/
theorem Turn.Follows.balanced_after
    {turn : Turn}
    {machine : Machine}
    (follows : turn.Follows machine)
    (balanced : machine.Balanced) :
    turn.after.Balanced := by
  cases follows with
  | order rested command => exact command.balanced_start _
  | work planned =>
      apply Machine.balanced_perform
      rw [Machine.Balanced, planned] at balanced
      exact balanced

namespace Run

/-- In every run each reply in hand has one task that will put it down. -/
theorem balanced
    {turns : List Turn}
    {machine : Machine}
    (run : Run turns machine) :
    machine.Balanced := by
  induction run with
  | start => rfl
  | order run rested command inductionHypothesis =>
      exact (Turn.Follows.order rested command).balanced_after inductionHypothesis
  | work run planned inductionHypothesis =>
      exact (Turn.Follows.work planned).balanced_after inductionHypothesis

/-- When a machine rests, its hand is empty. -/
theorem hand_eq_nil
    {turns : List Turn}
    {machine : Machine}
    (run : Run turns machine)
    (rested : machine.tasks = []) :
    machine.hand = [] :=
  run.balanced.hand_eq_nil rested

end Run

/-! ## Boundaries inside a run -/

namespace Run

/-- The last turn of a run follows the machine before it. -/
theorem exists_of_snoc
    {turns : List Turn}
    {turn : Turn}
    {machine : Machine}
    (run : Run (turns ++ [turn]) machine) :
    ∃ prior,
      Run turns prior ∧ turn.Follows prior ∧ turn.after = machine := by
  generalize whole : turns ++ [turn] = all at run
  cases run with
  | start => simp at whole
  | order run rested command =>
      obtain ⟨rfl, same⟩ := List.append_inj' whole rfl
      obtain rfl := List.singleton_inj.mp same
      exact ⟨_, run, .order rested command, rfl⟩
  | work run planned =>
      obtain ⟨rfl, same⟩ := List.append_inj' whole rfl
      obtain rfl := List.singleton_inj.mp same
      exact ⟨_, run, .work planned, rfl⟩

/-- Turns lead to one machine only. -/
theorem unique
    {turns : List Turn}
    {machine other : Machine}
    (run : Run turns machine)
    (again : Run turns other) :
    other = machine := by
  rcases List.eq_nil_or_concat turns with rfl | ⟨earlier, last, rfl⟩
  · have initial :
        ∀ {reached : Machine}, Run [] reached → reached = .atRest .initial := by
      intro reached fresh
      generalize none : ([] : List Turn) = turns at fresh
      cases fresh with
      | start => rfl
      | order | work => simp at none
    rw [initial run, initial again]
  · rw [List.concat_eq_append] at run again
    obtain ⟨-, -, -, rfl⟩ := exists_of_snoc run
    obtain ⟨-, -, -, rfl⟩ := exists_of_snoc again
    rfl

/-- A run comes to a boundary before and after each of its turns. -/
theorem exists_of_append
    {former later : List Turn}
    {turn : Turn}
    {machine : Machine}
    (run : Run (former ++ turn :: later) machine) :
    ∃ prior,
      Run former prior ∧
        turn.Follows prior ∧
        Run (former ++ [turn]) turn.after := by
  induction later using List.reverseRecOn generalizing machine with
  | nil =>
      obtain ⟨prior, earlier, follows, rfl⟩ := run.exists_of_snoc
      exact ⟨prior, earlier, follows, run⟩
  | append_singleton later last inductionHypothesis =>
      have parted :
          former ++ turn :: (later ++ [last]) =
            former ++ turn :: later ++ [last] := by
        rw [List.append_assoc]
        rfl
      rw [parted] at run
      obtain ⟨prior, earlier, -, -⟩ := run.exists_of_snoc
      exact inductionHypothesis earlier

end Run

/-! ## Performing commands makes a run -/

/-- The session after commands. -/
def Session.afterAll (session : Session) : List Command → Session
  | [] => session
  | command :: rest => (session.perform command).session.afterAll rest

namespace Run

/-- A run goes on until the machine rests. -/
theorem exists_run
    {turns : List Turn}
    {machine : Machine}
    (run : Run turns machine) :
    ∃ more,
      Run (turns ++ more) machine.run ∧
        machine.run.tasks = [] ∧
        machine.run.trace = machine.trace ++ eventsOf more := by
  induction machine using Machine.run.induct generalizing turns with
  | case1 machine next stepped lighter inductionHypothesis =>
      rw [Machine.run_of_step? stepped]
      obtain ⟨task, later, planned, rfl⟩ := Machine.exists_of_step? stepped
      obtain ⟨more, goesOn, rested, trace⟩ :=
        inductionHypothesis (run.work planned)
      refine
        ⟨.work { machine with tasks := later } task :: more,
          by simpa using goesOn, rested, ?_⟩
      have first :=
        Turn.trace_after (.work { machine with tasks := later } task)
      simp only [Turn.after, Turn.before] at first
      rw [trace, first, eventsOf, eventsOf, List.flatMap_cons,
        List.append_assoc]
  | case2 machine resting =>
      rw [Machine.run_of_step?_none resting]
      exact
        ⟨[], by simpa using run, Machine.step?_eq_none_iff.mp resting,
          by simp [eventsOf]⟩

/-- Performing commands one after the other carries a run on to another rest. -/
theorem exists_performAll
    {turns : List Turn}
    {machine : Machine}
    (run : Run turns machine)
    (rested : machine.tasks = [])
    (commands : List Command) :
    ∃ more last,
      Run (turns ++ more) last ∧
        last.tasks = [] ∧
        last.session = machine.session.afterAll commands ∧
        eventsOf more =
          (machine.session.performAll commands).flatMap Outcome.trace := by
  induction commands generalizing turns machine with
  | nil =>
      exact ⟨[], machine, by simpa using run, rested, rfl, rfl⟩
  | cons command rest inductionHypothesis =>
      obtain ⟨first, reached, stopped, trace⟩ :=
        (run.order rested command).exists_run
      obtain ⟨more, last, goesOn, lastRested, session, events⟩ :=
        inductionHypothesis reached stopped
      refine
        ⟨.order machine.session command :: first ++ more, last,
          by simpa using goesOn, lastRested, session, ?_⟩
      have started :
          (command.start machine.session).2.trace =
            (Turn.order machine.session command).events := by
        exact Turn.trace_after (.order machine.session command)
      have performed :
          (machine.session.perform command).trace =
            (Turn.order machine.session command).events ++
              eventsOf first := by
        rw [← started]
        exact trace
      simp only [eventsOf, List.cons_append, List.flatMap_cons,
        List.flatMap_append, Session.performAll, performed] at events ⊢
      rw [events, List.append_assoc]
      rfl

end Run

end Reply
