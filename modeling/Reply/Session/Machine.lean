import Reply.Session.Weight

namespace Reply

/-!
# The session machine

A machine carries out the work a command calls for, one task at a time.  The
replies in hand form a stack: letting a guarded reply go puts it on top, and the
reply set aside comes back when it is done with.  A handler that fires becomes
the task of playing its script on the reply in hand, ahead of all other work.

Every task makes the machine lighter, so a machine always comes to rest.
-/

/-- A piece of work. -/
inductive Task
  | finalize
  | play (handler : String) (script : Script)
  | report (handler word : String) (answer : Answer)
  | shelve (slot : String) (guarded : Bool)
  | discard

/-- A session with work in progress. -/
structure Machine where
  session : Session
  hand : List Response
  tasks : List Task
  trace : List Event

namespace Machine

/-- Add notes to the trace. -/
def note (machine : Machine) (notes : List Note) : Machine :=
  { machine with trace := machine.trace ++ notes.map Event.noted }

/-- Fire a handler on the reply in hand. -/
def fire (machine : Machine) (handler : Handler) : Machine :=
  match machine.hand with
  | [] => machine
  | reply :: _ =>
      { machine with
        tasks := .play handler.name handler.script :: machine.tasks
        trace :=
          machine.trace ++
            [.fired handler.serial handler.name reply
              (Probe.isAlive machine.session.flags reply.probe)] }

/-- Finalize the reply in hand and fire the handler that is due. -/
def finalize (machine : Machine) : Machine :=
  match machine.hand with
  | [] => machine
  | reply :: below =>
      let outcome := reply.finalize
      let finished :=
        { machine with hand := outcome.value.1 :: below }.note outcome.notes
      match outcome.value.2 with
      | some handler => finished.fire handler
      | none => finished

/-- Put the reply in hand into a slot; a guarded reply there is let go. -/
def shelve (machine : Machine) (slot : String) (guarded : Bool) : Machine :=
  match machine.hand with
  | [] => machine
  | reply :: below =>
      let session :=
        { machine.session with
          slots := machine.session.slots.put slot ⟨reply, guarded⟩ }
      match machine.session.slots.get? slot with
      | some ⟨former, true⟩ =>
          { machine with
            session := session
            hand := former :: below
            tasks := .finalize :: .discard :: machine.tasks }
      | _ => { machine with session := session, hand := below }

/-- Do what a step calls for, before the work already planned. -/
def follow (machine : Machine) : Sequel → Machine
  | .nothing => machine
  | .finalize => { machine with tasks := .finalize :: machine.tasks }
  | .fire handler => machine.fire handler
  | .store slot reply =>
      { machine with
        hand := reply :: machine.hand
        tasks := .shelve slot false :: machine.tasks }

/-- Take the first step of a script; its report waits for its sequel. -/
def play (machine : Machine) (handler : String) : Script → Machine
  | [] => machine
  | (word, step) :: rest =>
      match machine.hand with
      | [] => machine
      | reply :: below =>
          let effect := step.apply machine.session reply
          let stepped : Machine :=
            { session := effect.session
              hand := effect.reply :: below
              tasks :=
                .report handler word effect.answer ::
                  .play handler rest :: machine.tasks
              trace := machine.trace }
          (stepped.note effect.notes).follow effect.sequel

/-- Carry out a task. -/
def perform (machine : Machine) : Task → Machine
  | .finalize => machine.finalize
  | .play handler script => machine.play handler script
  | .report handler word answer =>
      { machine with
        trace := machine.trace ++ [.reported handler word answer] }
  | .shelve slot guarded => machine.shelve slot guarded
  | .discard => { machine with hand := machine.hand.tail }

/-- Carry out the next task, if there is one. -/
def step? (machine : Machine) : Option Machine :=
  match machine.tasks with
  | [] => none
  | task :: later => some ({ machine with tasks := later }.perform task)

end Machine

/-! ## Coming to rest -/

/-- What a task weighs by itself. -/
def Task.weight : Task → Nat
  | .play _ script => 1 + scriptWeight script
  | .shelve _ guarded => if guarded then 3 else 1
  | _ => 1

namespace Machine

/-- The session, the replies in hand and the work planned, weighed together. -/
def weight (machine : Machine) : Nat :=
  machine.session.weight +
    sumOf Buffered.weight machine.hand +
    sumOf Task.weight machine.tasks

@[simp] theorem weight_note
    (machine : Machine)
    (notes : List Note) :
    (machine.note notes).weight = machine.weight :=
  rfl

/-- Firing a handler adds no more than playing its script. -/
theorem weight_fire_le
    (machine : Machine)
    (handler : Handler) :
    (machine.fire handler).weight ≤
      machine.weight + (1 + scriptWeight handler.script) := by
  unfold fire
  split
  · omega
  · simp only [weight, sumOf, Task.weight]
    omega

/-- Following a sequel adds no more than the sequel weighs. -/
theorem weight_follow_le
    (machine : Machine)
    (sequel : Sequel) :
    (machine.follow sequel).weight ≤ machine.weight + sequel.weight := by
  cases sequel with
  | nothing => exact Nat.le_refl _
  | finalize =>
      simp only [follow, weight, sumOf, Task.weight,
        Sequel.weight]
      omega
  | fire handler => exact machine.weight_fire_le handler
  | store slot reply =>
      simp only [follow, weight, sumOf, Task.weight,
        Sequel.weight, Bool.false_eq_true, if_false]
      omega

/-- Finalizing adds nothing: the handler is detached before it plays. -/
theorem weight_finalize_le (machine : Machine) :
    machine.finalize.weight ≤ machine.weight := by
  unfold finalize
  split
  · exact Nat.le_refl _
  · next reply below held =>
      have kept : reply.tagged.handler = reply.handler := reply.handler_tagged
      simp only [Buffered.finalize]
      cases finished : reply.tagged.completed with
      | true =>
          have same := Buffered.weight_congr kept
          simp only [if_true, weight_note]
          simp only [weight, held, sumOf, same]
          omega
      | false =>
          cases due : reply.handler with
          | none =>
              simp only [Bool.false_eq_true, if_false, kept, due, weight_note]
              simp only [weight, held, sumOf,
                Buffered.weight, due, Registry.sizeOf?]
              omega
          | some handler =>
              simp only [Bool.false_eq_true, if_false, kept, due]
              refine Nat.le_trans (weight_fire_le ..) ?_
              simp only [weight_note]
              simp only [weight, held, sumOf,
                Buffered.weight, due, Registry.sizeOf?, Handler.weight]
              omega

/-- Shelving a reply adds no more than its guard. -/
theorem weight_shelve_lt
    (machine : Machine)
    (slot : String)
    (guarded : Bool) :
    (machine.shelve slot guarded).weight <
      machine.weight + (Task.shelve slot guarded).weight := by
  have extra :
      1 + (if guarded then 2 else 0) ≤ (Task.shelve slot guarded).weight := by
    cases guarded with
    | false => exact Nat.le_refl 1
    | true => exact Nat.le_refl 3
  unfold shelve
  split
  · omega
  · next reply below held =>
      have exchanged :=
        Registry.total_put Holding.weight machine.session.slots slot
          ⟨reply, guarded⟩
      have added :
          Holding.weight ⟨reply, guarded⟩ =
            reply.weight + if guarded then 2 else 0 :=
        rfl
      split
      · next former found =>
          have given : Holding.weight ⟨former, true⟩ = former.weight + 2 :=
            rfl
          have two : Task.finalize.weight + Task.discard.weight = 2 :=
            rfl
          rw [found] at exchanged
          simp only [Registry.sizeOf?] at exchanged
          simp only [weight, Session.weight, held, sumOf]
          omega
      · simp only [weight, Session.weight, held, sumOf]
        omega

/-- Taking a script's first step is lighter than the whole script. -/
theorem weight_play_lt
    (machine : Machine)
    (handler : String)
    (script : Script) :
    (machine.play handler script).weight <
      machine.weight + (Task.play handler script).weight := by
  cases script with
  | nil =>
      simp only [play, Task.weight]
      omega
  | cons line rest =>
      rcases line with ⟨word, step⟩
      unfold play
      simp only [Task.weight, scriptWeight]
      split
      · omega
      · next reply below held =>
          have bound := step.weight_apply_le machine.session reply
          refine Nat.lt_of_le_of_lt (weight_follow_le ..) ?_
          simp only [Effect.weight] at bound
          simp only [weight_note]
          simp only [weight, held, sumOf, Task.weight]
          omega

/-- Every task makes the machine lighter. -/
theorem weight_step?_lt
    {machine next : Machine}
    (stepped : machine.step? = some next) :
    next.weight < machine.weight := by
  unfold step? at stepped
  split at stepped
  · contradiction
  · next task later planned =>
      have popped :
          ({ machine with tasks := later } : Machine).weight + task.weight =
            machine.weight := by
        simp only [weight, planned, sumOf]
        omega
      rw [← popped, ← Option.some.inj stepped]
      cases task with
      | finalize =>
          exact Nat.lt_succ_of_le (weight_finalize_le _)
      | play handler script => exact weight_play_lt ..
      | report handler word answer => exact Nat.lt_succ_self _
      | shelve slot guarded => exact weight_shelve_lt ..
      | discard =>
          have tail :
              sumOf Buffered.weight machine.hand.tail ≤
                sumOf Buffered.weight machine.hand := by
            cases machine.hand with
            | nil => exact Nat.le_refl _
            | cons reply below =>
                simp only [List.tail_cons, sumOf]
                omega
          simp only [perform, weight, Task.weight]
          omega

/-- Carry out all work. -/
def run (machine : Machine) : Machine :=
  match stepped : machine.step? with
  | some next =>
      have := weight_step?_lt stepped
      next.run
  | none => machine
termination_by machine.weight

/-- A run begins with the next task. -/
theorem run_of_step?
    {machine next : Machine}
    (stepped : machine.step? = some next) :
    machine.run = next.run := by
  rw [run]
  split
  · next other same =>
      rw [stepped] at same
      rw [Option.some.inj same]
  · next rested =>
      rw [stepped] at rested
      contradiction

/-- A machine at rest stays as it is. -/
theorem run_of_step?_none
    {machine : Machine}
    (rested : machine.step? = none) :
    machine.run = machine := by
  rw [run]
  split
  · next other same =>
      rw [rested] at same
      contradiction
  · rfl

/-- A run ends only when no task is left. -/
theorem step?_run (machine : Machine) :
    machine.run.step? = none := by
  fun_induction run machine with
  | case1 machine next stepped lighter inductionHypothesis =>
      exact inductionHypothesis
  | case2 machine rested => exact rested

end Machine

end Reply
