import Reply.Proofs.Session.Calls
import Reply.Proofs.Session.Conservation
import Reply.Proofs.Session.Descent
import Reply.Proofs.Session.Targets

namespace Reply

/-!
# Completion ends

A handler that fires may attach others, finalize replies, let guarded ones go and
invoke handlers that were released, so that firing calls for more firing.  It ends
because a handler is detached before it plays: the handler gives way to its script,
and what the script may still attach is less than what the handler promised.  The
promise of all living handlers and of the work planned is spent by firing and raised
only by commands.
-/

/-! ## Promises -/

mutual

/-- How many handlers a step attaches anew, those in its scripts included. -/
def Step.attachments : Step → Nat
  | .setHandler _ script => 1 + scriptAttachments script
  | _ => 0

/-- How many handlers the steps of a script attach anew, at any depth. -/
def scriptAttachments : List (String × Step) → Nat
  | [] => 0
  | (_, step) :: rest => step.attachments + scriptAttachments rest

end

/-- How many handlers a command attaches anew, at any depth. -/
def Command.attachments : Command → Nat
  | .act _ (.ask step) => step.attachments
  | _ => 0

/-- A handler fires at most once, and so do those that its script attaches. -/
def Handler.promise (handler : Handler) : Nat :=
  1 + scriptAttachments handler.script

/-- What the attached handler promises. -/
def Buffered.promise (reply : Response) : Nat :=
  Registry.sizeOf? Handler.promise reply.handler

/-- What the handler that is fired promises. -/
def Sequel.promise : Sequel → Nat
  | .fire handler => handler.promise
  | _ => 0

/-- What a script that is still to be played attaches. -/
def Task.promise : Task → Nat
  | .play _ script => scriptAttachments script
  | _ => 0

/-- What a turn is called on to do promises of itself. -/
def Turn.promise : Turn → Nat
  | .order _ command => command.attachments
  | .work _ task => task.promise

namespace Machine

/-- The handlers that live: those attached to live replies and those released. -/
def handlers (machine : Machine) : List Handler :=
  machine.replies.filterMap Buffered.handler ++
    machine.session.handlers.contents

/-- What the released handlers and the work planned promise. -/
def pledge (machine : Machine) : Nat :=
  machine.session.handlers.total Handler.promise +
    sumOf Task.promise machine.tasks

/-- What all living handlers and the work planned promise. -/
def promise (machine : Machine) : Nat :=
  sumOf Buffered.promise machine.replies + machine.pledge

/-- How many handlers live, and how many their scripts attach at any depth. -/
def armament (machine : Machine) : Nat :=
  machine.handlers.length +
    sumOf (fun handler => scriptAttachments handler.script) machine.handlers

/-- Living handlers promise a firing each and what their scripts attach. -/
theorem promise_eq (machine : Machine) :
    machine.promise =
      machine.armament + sumOf Task.promise machine.tasks := by
  have attached :
      ∀ replies : List Response,
        sumOf Buffered.promise replies =
          sumOf Handler.promise (replies.filterMap Buffered.handler) := by
    intro replies
    induction replies with
    | nil => rfl
    | cons reply rest inductionHypothesis =>
        rw [sumOf, inductionHypothesis, Buffered.promise,
          List.filterMap_cons]
        cases reply.handler with
        | none => exact Nat.zero_add _
        | some handler => rfl
  have released :
      machine.session.handlers.total Handler.promise =
        sumOf Handler.promise machine.session.handlers.contents :=
    (sumOf_map Handler.promise Prod.snd _).symm
  have parted :
      ∀ handlers : List Handler,
        sumOf Handler.promise handlers =
          handlers.length +
            sumOf (fun handler => scriptAttachments handler.script)
              handlers := by
    intro handlers
    induction handlers with
    | nil => rfl
    | cons handler rest inductionHypothesis =>
        rw [sumOf, sumOf, inductionHypothesis, Handler.promise,
          List.length_cons]
        omega
  rw [promise, pledge, attached, released, ← Nat.add_assoc, ← sumOf_append,
    parted]
  rfl

end Machine

/-! ## One step -/

/-- A reply that moves promises no more than before. -/
theorem Buffered.promise_relocate_le
    (reply : Response)
    (fresh : Nat) :
    (reply.relocate fresh).value.1.promise ≤ reply.promise := by
  simp only [relocate, promise]
  split
  · exact Nat.zero_le _
  · exact Nat.le_refl _

/-- Firing takes up the promise of the handler that there may be. -/
theorem Sequel.promise_firing (handler? : Option Handler) :
    (firing handler?).promise =
      Registry.sizeOf? Handler.promise handler? := by
  cases handler? with
  | none => rfl
  | some handler => rfl

/-- A step promises no more than it finds and attaches. -/
theorem Step.promise_apply_le
    (session : Session)
    (reply : Response)
    (step : Step) :
    sumOf Buffered.promise (step.apply session reply).replies +
        (step.apply session reply).session.handlers.total Handler.promise +
        (step.apply session reply).sequel.promise ≤
      reply.promise + session.handlers.total Handler.promise +
        step.attachments := by
  cases content : step.isContent with
  | true =>
      have effect := step.onContent session reply content
      obtain ⟨flags, same⟩ := effect.session
      rw [same, effect.sequel, Effect.replies, effect.sequel]
      simp only [Sequel.replies, Sequel.promise, sumOf, Buffered.promise,
        effect.kept.handler]
      omega
  | false =>
      cases step with
      | clear | finalize | setProbe =>
          simp only [apply, Session.setProbe, Effect.noting, Effect.changing,
            Effect.replies, Sequel.replies, Sequel.promise, sumOf,
            Buffered.clear, Buffered.promise]
          omega
      | setHandler name script =>
          simp only [apply, Session.setHandler, Effect.noting,
            Effect.replies, Sequel.replies, Sequel.promise, sumOf,
            Buffered.attach, Buffered.promise, Registry.sizeOf?,
            Handler.promise, attachments]
          omega
      | releaseHandler name =>
          have added :=
            session.handlers.total_accept_le Handler.promise name reply.handler
          simp only [apply, Session.releaseHandler_eq, Effect.replies,
            Sequel.replies, Sequel.promise, sumOf, Buffered.promise,
            Registry.sizeOf?_none]
          omega
      | invokeHandler name =>
          have taken := session.handlers.total_erase Handler.promise name
          simp only [apply, Session.invokeHandler_eq, Effect.replies,
            Sequel.replies_firing, Sequel.promise_firing, sumOf]
          omega
      | attachHandler name =>
          have taken := session.handlers.total_erase Handler.promise name
          have replaced :=
            Registry.sizeOf?_or_le Handler.promise (session.handlers.get? name)
              reply.handler
          simp only [apply, Session.attachHandler_eq, Effect.replies,
            Sequel.replies, Sequel.promise, sumOf, Buffered.promise]
          omega
      | releaseProbe name =>
          simp only [apply, Session.releaseProbe_eq, Effect.replies,
            Sequel.replies, Sequel.promise, sumOf, Buffered.promise]
          omega
      | attachProbe name =>
          simp only [apply, Session.attachProbe_eq, Effect.replies,
            Sequel.replies, Sequel.promise, sumOf, Buffered.promise]
          omega
      | relocate slot =>
          have moved := reply.promise_relocate_le session.nextId
          have blank :
              (reply.relocate session.nextId).value.2.promise = 0 :=
            rfl
          simp only [apply, Session.relocate, Effect.replies, Sequel.replies,
            Sequel.promise, sumOf, blank]
          omega
      | _ => contradiction

/-- Finalizing splits what a reply promises off with the handler that is due. -/
theorem Buffered.promise_finalize (reply : Response) :
    reply.finalize.value.1.promise +
        Registry.sizeOf? Handler.promise reply.finalize.value.2 =
      reply.promise := by
  rw [finalize_value]
  split
  · rw [promise, (Kept.tagged reply).handler]
    rfl
  · exact Nat.zero_add _

/-! ## One turn -/

namespace Machine

/-- Firing a handler spends one of what it promises, and its script keeps the rest. -/
theorem pledge_fire
    {machine : Machine}
    (held : machine.hand ≠ [])
    (handler : Handler) :
    (machine.fire handler).pledge +
        (firings (machine.fire handler).trace).length =
      machine.pledge + (firings machine.trace).length +
        handler.promise := by
  rw [fire]
  split
  · contradiction
  · next reply below hand =>
      have one :
          ∀ alive,
            (firings
              [.fired handler.serial handler.name reply alive]).length = 1 :=
        fun _ => rfl
      simp only [pledge, sumOf, Task.promise, firings_append,
        List.length_append, one, Handler.promise]
      omega

/-- Following a sequel raises the pledge by what the fired handler promises. -/
theorem pledge_follow
    {machine : Machine}
    (held : machine.hand ≠ [])
    (sequel : Sequel) :
    (machine.follow sequel).pledge +
        (firings (machine.follow sequel).trace).length =
      machine.pledge + (firings machine.trace).length +
        sequel.promise := by
  cases sequel with
  | fire handler => exact pledge_fire held handler
  | nothing => rfl
  | finalize | store =>
      simp only [follow, pledge, sumOf, Task.promise, Sequel.promise]
      omega

@[simp] theorem pledge_note
    (machine : Machine)
    (notes : List Note) :
    (machine.note notes).pledge = machine.pledge :=
  rfl

@[simp] theorem firings_trace_note
    (machine : Machine)
    (notes : List Note) :
    firings (machine.note notes).trace = firings machine.trace := by
  rw [note, firings_append, firings_noted, List.append_nil]

/-- Taking a step with work planned raises the pledge by what the step attaches. -/
theorem pledge_stepped_le
    {machine : Machine}
    {session : Session}
    {reply : Response}
    {step : Step}
    (left : machine.session = (step.apply session reply).session)
    (held : machine.hand ≠ []) :
    (machine.follow (step.apply session reply).sequel).pledge +
        (firings
          (machine.follow (step.apply session reply).sequel).trace).length +
        sumOf Buffered.promise (Deed.stepped session reply step).yielded ≤
      session.handlers.total Handler.promise +
        sumOf Task.promise machine.tasks +
        (firings machine.trace).length +
        sumOf Buffered.promise (Deed.stepped session reply step).used +
        step.attachments := by
  have law := step.promise_apply_le session reply
  have followed := pledge_follow held (step.apply session reply).sequel
  have own :
      machine.pledge =
        (step.apply session reply).session.handlers.total Handler.promise +
          sumOf Task.promise machine.tasks := by
    rw [pledge, left]
  simp only [Deed.yielded, Deed.used, sumOf]
  omega

/-- A task spends by firing no more than what it and the reply it takes up promise. -/
theorem pledge_perform_le
    (machine : Machine)
    (task : Task) :
    (machine.perform task).pledge +
        (firings (machine.perform task).trace).length +
        sumOf Buffered.promise (task.deed machine).yielded ≤
      machine.pledge + (firings machine.trace).length +
        sumOf Buffered.promise (task.deed machine).used + task.promise := by
  cases task with
  | finalize =>
      cases hand : machine.hand with
      | nil =>
          simp only [perform, finalize, Task.deed, hand, Deed.yielded,
            Deed.used]
          exact Nat.le_add_right _ _
      | cons reply below =>
          have parted := reply.promise_finalize
          have fired :
              ∀ handler : Handler, ∀ alive,
                firings
                    [.fired handler.serial handler.name
                      reply.finalize.value.1 alive] =
                  handler.tokens :=
            fun _ _ => rfl
          simp only [perform, finalize_eq hand, Task.deed, hand, pledge,
            sumOf_append, firings_append, firings_noted, Deed.yielded,
            Deed.used, sumOf, List.nil_append, List.length_append]
          cases due : reply.finalize.value.2 with
          | none =>
              simp only [due, Registry.sizeOf?] at parted
              simp only [Option.toList_none, List.map_nil, sumOf, firings_nil,
                List.length_nil, Task.promise]
              omega
          | some handler =>
              simp only [due, Registry.sizeOf?, Handler.promise] at parted
              simp only [Option.toList_some, List.map_cons, List.map_nil,
                sumOf, fired, Handler.tokens, List.length_singleton,
                Task.promise]
              omega
  | play handler script =>
      cases script with
      | nil => exact Nat.le_add_right _ _
      | cons line rest =>
          rcases line with ⟨word, step⟩
          cases hand : machine.hand with
          | nil =>
              simp only [perform, play, Task.deed, hand, Deed.yielded,
                Deed.used]
              omega
          | cons reply below =>
              simp only [perform, play, Task.deed, hand]
              refine Nat.le_trans (pledge_stepped_le rfl ?_) ?_
              · exact List.cons_ne_nil _ _
              · simp only [firings_trace_note]
                simp only [note, sumOf, Task.promise, scriptAttachments, pledge]
                omega
  | report handler word answer =>
      have silent : firings [.reported handler word answer] = [] := rfl
      simp only [perform, firings_append, silent, List.append_nil]
      exact Nat.le_refl _
  | shelve slot guarded =>
      cases hand : machine.hand with
      | nil =>
          simp only [perform, shelve, Task.deed, hand, Deed.yielded, Deed.used]
          exact Nat.le_refl _
      | cons reply below =>
          rcases present : machine.session.slots.get? slot with
            _ | ⟨former, _ | _⟩ <;>
            simp only [perform, shelve, Task.deed, hand, present, pledge,
              Task.promise, Deed.yielded, Deed.used, sumOf] <;>
            omega
  | discard =>
      cases hand : machine.hand with
      | nil =>
          simp only [perform, Task.deed, hand, Deed.yielded, Deed.used]
          exact Nat.le_refl _
      | cons reply below =>
          simp only [perform, Task.deed, hand, pledge, Deed.yielded, Deed.used, sumOf]
          omega

end Machine

/-- An action spends by firing no more than what the reply and the action promise. -/
theorem Action.pledge_start_le
    (session : Session)
    (slot : String)
    (content : Holding)
    (action : Action) :
    (action.start session slot content).2.pledge +
        (firings (action.start session slot content).2.trace).length +
        sumOf Buffered.promise (action.deed session slot content).yielded ≤
      (Machine.atRest session).pledge +
        sumOf Buffered.promise (action.deed session slot content).used +
        (Command.act slot action).attachments := by
  cases action with
  | ask step =>
      simp only [start, deed, Session.ask, Command.attachments]
      have law :=
        step.promise_apply_le (session.emptied slot) content.reply
      split
      · next target moved carried =>
          rw [carried] at law
          rw [Machine.firings_trace_note, Machine.pledge_note]
          simp only [firings_nil, List.length_nil, Machine.pledge,
            Machine.atRest, Session.emptied, sumOf, Task.promise,
            Sequel.promise, Deed.yielded, Deed.used] at law ⊢
          omega
      · refine Nat.le_trans (Machine.pledge_stepped_le rfl ?_) ?_
        · exact List.cons_ne_nil _ _
        · simp only [Machine.firings_trace_note]
          exact Nat.le_refl _
  | drop =>
      simp only [start, deed, Session.letGo]
      split <;> exact Nat.le_add_right _ _
  | move target => exact Nat.le_refl _
  | guard =>
      simp only [start]
      split <;> exact Nat.le_refl _
  | unguard =>
      have moved := content.reply.promise_relocate_le session.nextId
      simp only [start, deed]
      split
      · rw [Machine.firings_trace_note, Machine.pledge_note]
        exact Nat.add_le_add_left moved _
      · exact Nat.le_refl _
  | release =>
      simp only [start, deed]
      split
      · exact Nat.le_refl _
      · exact Nat.le_add_right _ _
  | deliver =>
      simp only [start, deed]
      split
      · exact Nat.le_refl _
      · rw [Machine.firings_trace_note, Machine.pledge_note]
        exact Nat.le_add_right _ _

namespace Turn

/-- A turn spends by firing no more than what replies and the turn promise. -/
theorem pledge_le (turn : Turn) :
    turn.after.pledge + (firings turn.events).length +
        sumOf Buffered.promise turn.deed.yielded ≤
      turn.before.pledge + sumOf Buffered.promise turn.deed.used +
        turn.promise := by
  have law :
      turn.after.pledge + (firings turn.after.trace).length +
          sumOf Buffered.promise turn.deed.yielded ≤
        turn.before.pledge + (firings turn.before.trace).length +
          sumOf Buffered.promise turn.deed.used + turn.promise := by
    cases turn with
    | order session command =>
        cases command with
        | create slot => exact Nat.le_refl _
        | adopt slot message => exact Nat.le_refl _
        | act slot action =>
            simp only [after, before, deed, Command.start, Command.deed]
            cases session.slots.get? slot with
            | none => exact Nat.le_add_right _ _
            | some content => exact action.pledge_start_le session slot content
    | work machine task => exact machine.pledge_perform_le task
  rw [trace_after, firings_append, List.length_append] at law
  omega

/-- Firing spends promises, and none are made but by the turn itself. -/
theorem promise_le
    (turn : Turn) :
    turn.after.promise + (firings turn.events).length ≤
      turn.before.promise + turn.promise := by
  have flow := turn.flow Buffered.promise
  have pledged := turn.pledge_le
  simp only [Machine.promise]
  omega

/-- What a command promises; a task is carried out on promises made before. -/
def asks : Turn → Nat
  | .order _ command => command.attachments
  | .work _ _ => 0

end Turn

/-! ## Stretches of a run -/

namespace Run

variable {turns more : List Turn} {machine last : Machine}

/-- One turn after a boundary spends promises that were made there or by a command. -/
theorem promise_next_le
    (run : Run turns machine)
    {turn : Turn}
    (follows : turn.Follows machine) :
    turn.after.promise + (firings turn.events).length ≤
      machine.promise + turn.asks := by
  refine Nat.le_trans turn.promise_le ?_
  rw [Machine.promise, run.replies_before follows, Machine.promise,
    Machine.pledge, Machine.pledge, follows.session_before]
  cases follows with
  | order rested command =>
      rw [rested]
      exact Nat.le_refl _
  | work planned =>
      simp only [Turn.before, Turn.promise, Turn.asks, planned, sumOf]
      omega

/-- From one boundary to another firing spends what was promised. -/
theorem firings_le
    (begun : Run turns machine)
    (run : Run (turns ++ more) last) :
    last.promise + (firings (eventsOf more)).length ≤
      machine.promise + sumOf Turn.asks more := by
  induction more using List.reverseRecOn generalizing last with
  | nil =>
      rw [List.append_nil] at run
      rw [begun.unique run]
      exact Nat.le_refl _
  | append_singleton more turn inductionHypothesis =>
      rw [← List.append_assoc] at run
      obtain ⟨prior, earlier, follows, rfl⟩ := run.exists_of_snoc
      have before := inductionHypothesis earlier
      have now := earlier.promise_next_le follows
      simp only [eventsOf, List.flatMap_append, List.flatMap_singleton,
        firings_append, List.length_append, sumOf_append, sumOf] at before ⊢
      omega

end Run

/-! ## Work comes to an end -/

/-- A task that is carried out ahead of work planned for later. -/
def Turn.IsAhead (later : List Task) (turn : Turn) : Prop :=
  ∃ machine task, turn = .work machine task ∧ later <:+ machine.tasks

/-- Tasks ask for nothing by themselves. -/
theorem Turn.asks_of_isAhead
    {later : List Task}
    {more : List Turn}
    (ahead : ∀ turn ∈ more, turn.IsAhead later) :
    sumOf Turn.asks more = 0 := by
  induction more with
  | nil => rfl
  | cons turn rest inductionHypothesis =>
      obtain ⟨⟨machine, task, rfl, -⟩, others⟩ := List.forall_mem_cons.mp ahead
      rw [sumOf, inductionHypothesis others]
      rfl

/-- The work planned is done before what is planned for later. -/
theorem Run.exists_done
    {turns : List Turn}
    {machine : Machine}
    {later : List Task}
    (run : Run turns (machine.withLater later)) :
    ∃ more,
      Run (turns ++ more) (machine.run.withLater later) ∧
        (∀ turn ∈ more, turn.IsAhead later) ∧
        machine.run.trace = machine.trace ++ eventsOf more := by
  induction machine using Machine.run.induct generalizing turns with
  | case1 machine next stepped lighter inductionHypothesis =>
      rw [Machine.run_of_step? stepped]
      obtain ⟨task, rest, planned, rfl⟩ := Machine.exists_of_step? stepped
      have both :
          (machine.withLater later).tasks = task :: (rest ++ later) := by
        rw [Machine.withLater, planned, List.cons_append]
      let turn : Turn :=
        .work ({ machine with tasks := rest }.withLater later) task
      have same :
          turn.after =
            ({ machine with tasks := rest }.perform task).withLater later :=
        Machine.perform_withLater { machine with tasks := rest } later task
      have goesOn : Run (turns ++ [turn]) turn.after := run.work both
      rw [same] at goesOn
      obtain ⟨more, done, ahead, trace⟩ := inductionHypothesis goesOn
      refine
        ⟨turn :: more, by simpa using done,
          List.forall_mem_cons.mpr
            ⟨⟨_, _, rfl, List.suffix_append _ _⟩, ahead⟩, ?_⟩
      have first := turn.trace_after
      rw [same] at first
      calc
        _ = ({ machine with tasks := rest }.perform task).trace ++
              eventsOf more := trace
        _ = machine.trace ++ turn.events ++ eventsOf more :=
              congrArg (· ++ eventsOf more) first
        _ = machine.trace ++ eventsOf (turn :: more) :=
              List.append_assoc ..
  | case2 machine resting =>
      rw [Machine.run_of_step?_none resting]
      exact
        ⟨[], by simpa using run, List.forall_mem_nil _,
          (List.append_nil _).symm⟩

/-- No path of tasks is longer than its first machine is heavy. -/
theorem Machine.exists_rest (path : Nat → Machine) :
    ∃ count ≤ (path 0).weight,
      (path count).step? ≠ some (path (count + 1)) := by
  by_contra endless
  simp only [not_exists, not_and, not_not] at endless
  have lighter :
      ∀ count ≤ (path 0).weight + 1,
        (path count).weight + count ≤ (path 0).weight := by
    intro count bound
    induction count with
    | zero => exact Nat.le_refl _
    | succ count inductionHypothesis =>
        have before := inductionHypothesis (Nat.le_of_succ_le bound)
        have less :=
          weight_step?_lt (endless count (Nat.le_of_succ_le_succ bound))
        omega
  have beyond := lighter _ (Nat.le_refl _)
  omega

/-- Taking a step of a script plans what it calls for ahead of its report. -/
theorem Machine.exists_play_withLater
    {machine : Machine}
    {reply : Response}
    {below : List Response}
    (hand : machine.hand = reply :: below)
    (handler word : String)
    (step : Step)
    (rest : Script) :
    ∃ (stepped : Machine) (answer : Answer),
      machine.play handler ((word, step) :: rest) =
        stepped.withLater
          (.report handler word answer :: .play handler rest ::
            machine.tasks) := by
  refine
    ⟨(({ session := (step.apply machine.session reply).session
         hand := (step.apply machine.session reply).reply :: below
         tasks := []
         trace := machine.trace } : Machine).note
        (step.apply machine.session reply).notes).follow
          (step.apply machine.session reply).sequel,
      (step.apply machine.session reply).answer, ?_⟩
  rw [← follow_withLater]
  simp only [play, hand]
  rfl

/-! ## The bound -/

namespace Run

variable {turns : List Turn} {machine : Machine}

/-- A command is carried out until nothing is left, and what fires was promised. -/
theorem exists_performed
    (run : Run turns machine)
    (rested : machine.tasks = [])
    (command : Command) :
    ∃ more last,
      Run (turns ++ .order machine.session command :: more) last ∧
        (∀ turn ∈ more, turn.IsAhead []) ∧
        last.tasks = [] ∧
        last.session = (machine.session.perform command).session ∧
        eventsOf (.order machine.session command :: more) =
          (machine.session.perform command).trace ∧
        (firings (machine.session.perform command).trace).length ≤
          machine.armament + command.attachments := by
  have begun := run.order rested command
  have whole :
      (command.start machine.session).2 =
        (command.start machine.session).2.withLater [] := by
    simp only [Machine.withLater, List.append_nil]
  rw [whole] at begun
  obtain ⟨more, done, ahead, trace⟩ := begun.exists_done
  rw [List.append_assoc, List.singleton_append] at done
  have none :=
    Machine.step?_eq_none_iff.mp
      (Machine.step?_run (command.start machine.session).2)
  have started := Turn.trace_after (.order machine.session command)
  have events :
      eventsOf (.order machine.session command :: more) =
        (machine.session.perform command).trace :=
    (congrArg (· ++ eventsOf more) started.symm).trans trace.symm
  have bound := run.firings_le done
  rw [events, machine.promise_eq, rested, sumOf, sumOf,
    Turn.asks_of_isAhead ahead, Turn.asks] at bound
  refine ⟨more, _, done, ahead, ?_, rfl, events, ?_⟩
  · simpa only [Machine.withLater, List.append_nil] using none
  · omega

/-- A step of a script is carried out up to its report, and what fires was promised. -/
theorem exists_played
    (run : Run turns machine)
    {handler word : String}
    {step : Step}
    {rest : Script}
    {later : List Task}
    (planned :
      machine.tasks = .play handler ((word, step) :: rest) :: later) :
    ∃ more last answer,
      Run
          (turns ++
            .work { machine with tasks := later }
                (.play handler ((word, step) :: rest)) ::
              more)
          last ∧
        (∀ turn ∈ more,
          turn.IsAhead
            (.report handler word answer :: .play handler rest :: later)) ∧
        last.tasks =
          .report handler word answer :: .play handler rest :: later ∧
        (firings
            (eventsOf
              (.work { machine with tasks := later }
                  (.play handler ((word, step) :: rest)) ::
                more))).length ≤
          machine.armament + step.attachments := by
  obtain ⟨reply, below, hand⟩ := run.exists_hand planned
  obtain ⟨stepped, answer, taken⟩ :=
    Machine.exists_play_withLater
      (show ({ machine with tasks := later } : Machine).hand = reply :: below
        from hand)
      handler word step rest
  have begun := run.work planned
  rw [Machine.perform, taken] at begun
  obtain ⟨more, done, ahead, -⟩ := begun.exists_done
  rw [List.append_assoc, List.singleton_append] at done
  have none := Machine.step?_eq_none_iff.mp stepped.step?_run
  have left :
      (stepped.run.withLater
          (.report handler word answer :: .play handler rest :: later)).tasks =
        .report handler word answer :: .play handler rest :: later := by
    rw [Machine.withLater, none, List.nil_append]
  have bound := run.firings_le done
  -- What was planned before is promised at both ends and cancels out.
  rw [Machine.promise_eq, Machine.promise_eq, left, planned] at bound
  simp only [sumOf, Turn.asks_of_isAhead ahead, Turn.asks, Task.promise,
    scriptAttachments] at bound
  exact ⟨more, _, answer, done, ahead, left, by omega⟩

end Run

/--
From every boundary of a run, no path of tasks goes on for ever.  A command is carried
out until no work is left, and a step of a script until only its report and what was
planned before are left; the handlers that fire meanwhile are no more than those that
lived at the boundary and those that their scripts, and the command or the step, attach
at any depth.
-/
theorem completion_ends :
    ∀ turns machine,
      Run turns machine →
        (∀ path : Nat → Machine,
          path 0 = machine →
            ∃ count ≤ machine.weight,
              (path count).step? ≠ some (path (count + 1))) ∧
          (machine.tasks = [] →
            ∀ command : Command,
              ∃ more last,
                Run (turns ++ .order machine.session command :: more) last ∧
                  (∀ turn ∈ more, turn.IsAhead []) ∧
                  last.tasks = [] ∧
                  last.session =
                    (machine.session.perform command).session ∧
                  eventsOf (.order machine.session command :: more) =
                    (machine.session.perform command).trace ∧
                  (firings
                      (machine.session.perform command).trace).length ≤
                    machine.armament + command.attachments) ∧
          ∀ handler word step rest later,
            machine.tasks = .play handler ((word, step) :: rest) :: later →
              ∃ more last answer,
                Run
                    (turns ++
                      .work { machine with tasks := later }
                          (.play handler ((word, step) :: rest)) ::
                        more)
                    last ∧
                  (∀ turn ∈ more,
                    turn.IsAhead
                      (.report handler word answer ::
                        .play handler rest :: later)) ∧
                  last.tasks =
                    .report handler word answer ::
                      .play handler rest :: later ∧
                  (firings
                      (eventsOf
                        (.work { machine with tasks := later }
                            (.play handler ((word, step) :: rest)) ::
                          more))).length ≤
                    machine.armament + step.attachments := by
  intro turns machine run
  refine ⟨?endless, run.exists_performed, ?step⟩
  case endless =>
    rintro path rfl
    exact Machine.exists_rest path
  case step =>
    intro handler word step rest later planned
    exact run.exists_played planned

/--
A handler that attaches another one before it finalizes its reply again: two may fire,
and two do.  When its script comes to finalizing, one has fired and one is left.
-/
theorem completion_ends_rearmed :
    ∃ turns machine,
      Run turns machine ∧
        machine.tasks = [] ∧
        machine.armament = 2 ∧
        (firings
          (machine.session.perform
            (.act "a" (.ask .finalize))).trace).length ≤ 2 ∧
        ∃ more last,
          Run (turns ++ more) last ∧
            firings (eventsOf more) = [.handler 0] ∧
            last.armament = 1 ∧
            last.tasks =
              [.play "h" [("finalize", .finalize)], .shelve "a" false] ∧
            ∃ fired done answer,
              Run (turns ++ more ++ fired) done ∧
                (firings (eventsOf fired)).length ≤ 1 ∧
                done.tasks =
                  [.report "h" "finalize" answer, .play "h" [],
                    .shelve "a" false] := by
  have stored := (Run.start.order rfl (.create "a")).work rfl
  have armed :=
    (stored.order rfl
      (.act "a"
        (.ask
          (.setHandler "h"
            [("set_handler", .setHandler "g" [("finalize", .finalize)]),
              ("finalize", .finalize)])))).work rfl
  obtain ⟨-, -, -, -, -, -, -, bound⟩ :=
    (completion_ends _ _ armed).2.1 rfl (.act "a" (.ask .finalize))
  have fired := (armed.order rfl (.act "a" (.ask .finalize))).work rfl
  have rearmed := (fired.work rfl).work rfl
  rw [List.append_assoc, List.append_assoc, List.append_assoc] at rearmed
  obtain ⟨more, done, answer, again, -, left, once⟩ :=
    (completion_ends _ _ rearmed).2.2 _ _ _ _ _ rfl
  exact
    ⟨_, _, armed, rfl, rfl, bound, _, _, rearmed, rfl, rfl, rfl, _, done,
      answer, again, once, left⟩

end Reply
