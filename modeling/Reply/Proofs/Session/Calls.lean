import Mathlib.Algebra.BigOperators.Group.Finset.Basic
import Mathlib.Order.Interval.Finset.Nat
import Reply.Proofs.Session.Deeds
import Reply.Proofs.Session.Finalizing

namespace Reply

/-!
# Finalize calls

A step calls for finalizing, of a command or of a script, and so does letting a
guarded reply go.  A call is planned ahead of all other work, and while any work
is left there is a reply in hand, so each call that is carried out finds a reply
and counts one completion.  Nothing else counts completions.
-/

/-! ## Counting completions -/

/-- How often a reply of a variant was completed, with whatever status. -/
def completions (variant : Variant) (counted : List Counter) : Nat :=
  ∑ code ∈ Finset.Icc 100 999, counted.count (.finalized variant code)

/-- A counter of finalize calls. -/
def Counter.IsCall : Counter → Prop
  | .finalized _ _ => True
  | .finalizedTwice _ => True
  | _ => False

instance : (counter : Counter) → Decidable counter.IsCall
  | .finalized _ _ => .isTrue trivial
  | .finalizedTwice _ => .isTrue trivial
  | .notModified => .isFalse id
  | .overflow => .isFalse id

/-- The record of a reply that was finalized twice. -/
def Variant.twiceText : Variant → String
  | .buffered => "Response was finalized twice"
  | .streaming => "Streaming response was finalized twice"

/-- A note of a finalize call: its counter, an error, or word of a second call. -/
def Note.IsCall : Note → Prop
  | .logged level text =>
      level = .error ∨
        text = Variant.buffered.twiceText ∨
        text = Variant.streaming.twiceText
  | .counted counter => counter.IsCall

instance : (note : Note) → Decidable note.IsCall
  | .logged _ _ => inferInstanceAs (Decidable (_ ∨ _ ∨ _))
  | .counted counter => inferInstanceAs (Decidable counter.IsCall)

/-- What is counted among events is what they note as counted. -/
theorem mem_counters_iff
    {trace : List Event}
    {counter : Counter} :
    counter ∈ counters trace ↔ .noted (.counted counter) ∈ trace := by
  rw [counters, List.mem_filterMap]
  constructor
  · rintro ⟨event, member, counts⟩
    cases event with
    | noted note =>
        cases note with
        | counted held =>
            obtain rfl := Option.some.inj counts
            exact member
        | logged => contradiction
    | fired | reported => contradiction
  · intro member
    exact ⟨_, member, rfl⟩

/-- Notes that become events are the notes that were taken. -/
theorem Event.mem_of_noted
    {notes : List Note}
    {note : Note}
    (member : .noted note ∈ notes.map Event.noted) :
    note ∈ notes := by
  obtain ⟨taken, present, same⟩ := List.mem_map.mp member
  exact Event.noted.inj same ▸ present

section

variable {variant : Variant} {counted : List Counter}

theorem completions_append
    (variant : Variant)
    (first second : List Counter) :
    completions variant (first ++ second) =
      completions variant first + completions variant second := by
  simp only [completions, List.count_append, Finset.sum_add_distrib]

theorem completions_eq_zero
    (absent : ∀ code, .finalized variant code ∉ counted) :
    completions variant counted = 0 := by
  apply Finset.sum_eq_zero
  intro code _
  exact List.count_eq_zero.mpr (absent code)

/-- A call on a pending reply completes it, and any other is one more. -/
theorem completions_ofCall
    (variant : Variant)
    (completed : Bool)
    (status : Status) :
    completions variant [.ofCall variant completed status] =
        (if completed then 0 else 1) ∧
      [Counter.ofCall variant completed status].count
          (.finalizedTwice variant) =
        (if completed then 1 else 0) := by
  cases completed with
  | true =>
      refine ⟨completions_eq_zero ?_, List.count_singleton_self⟩
      intro code member
      have other := List.mem_singleton.mp member
      contradiction
  | false =>
      have inRange : status.code ∈ Finset.Icc 100 999 :=
        Finset.mem_Icc.mpr ⟨status.lower, status.upper⟩
      refine ⟨?_, rfl⟩
      refine
        (Finset.sum_eq_single_of_mem status.code inRange ?_).trans
          List.count_singleton_self
      intro code _ other
      apply List.count_eq_zero.mpr
      intro member
      exact other (Counter.finalized.inj (List.mem_singleton.mp member)).2

/-- A variant's calls leave the other variant's counters alone. -/
theorem completions_ofCall_of_ne
    {other : Variant}
    (different : other ≠ variant)
    (completed : Bool)
    (status : Status) :
    completions other [.ofCall variant completed status] = 0 ∧
      [Counter.ofCall variant completed status].count
        (.finalizedTwice other) = 0 := by
  have absent :
      ∀ counter : Counter,
        (∃ code, counter = .finalized other code) ∨
            counter = .finalizedTwice other →
          counter ∉ [Counter.ofCall variant completed status] := by
    rintro counter named member
    rw [List.mem_singleton.mp member] at named
    cases completed <;>
      rcases named with ⟨code, same⟩ | same <;>
      simp [Counter.ofCall, different.symm] at same
  exact
    ⟨completions_eq_zero fun code => absent _ (Or.inl ⟨code, rfl⟩),
      List.count_eq_zero.mpr (absent _ (Or.inr rfl))⟩

/-- What counts no finalize call counts no completion. -/
theorem completions_of_no_call
    (variant : Variant)
    (none : ∀ counter ∈ counted, ¬counter.IsCall) :
    completions variant counted = 0 ∧
      counted.count (.finalizedTwice variant) = 0 :=
  ⟨completions_eq_zero fun _ member => none _ member trivial,
    List.count_eq_zero.mpr fun member => none _ member trivial⟩

end

/-! ## Calls asked for and calls planned -/

/-- The reply that a deed asks to be finalized, if it does. -/
def Deed.called? : Deed → Option Response
  | .stepped _ reply .finalize => some reply
  | .letGo reply => some reply
  | _ => none

/-- How many finalize calls a deed asks for. -/
def Deed.calls (deed : Deed) : Nat :=
  deed.called?.toList.length

/-- How many finalize calls a sequel is. -/
def Sequel.calls : Sequel → Nat
  | .finalize => 1
  | _ => 0

/-- How many finalize calls a task is. -/
def Task.calls : Task → Nat
  | .finalize => 1
  | _ => 0

/-- Only the step that asks for finalizing calls for it. -/
theorem Step.calls_sequel
    (step : Step)
    (session : Session)
    (reply : Response) :
    (step.apply session reply).sequel.calls =
      (Deed.stepped session reply step).calls := by
  cases content : step.isContent with
  | true =>
      rw [(step.onContent session reply content).sequel]
      cases step with
      | finalize => contradiction
      | _ => rfl
  | false =>
      cases step with
      | clear | finalize | setHandler | setProbe | relocate => rfl
      | releaseHandler name =>
          rw [apply, Session.releaseHandler_eq]
          rfl
      | invokeHandler name =>
          rw [apply, Session.invokeHandler_eq]
          cases session.handlers.get? name with
          | none => rfl
          | some handler => rfl
      | attachHandler name =>
          rw [apply, Session.attachHandler_eq]
          rfl
      | releaseProbe name =>
          rw [apply, Session.releaseProbe_eq]
          rfl
      | attachProbe name =>
          rw [apply, Session.attachProbe_eq]
          rfl
      | _ => contradiction

namespace Machine

theorem calls_fire
    (machine : Machine)
    (handler : Handler) :
    sumOf Task.calls (machine.fire handler).tasks =
      sumOf Task.calls machine.tasks := by
  unfold fire
  split
  · rfl
  · exact Nat.zero_add _

theorem calls_follow
    (machine : Machine)
    (sequel : Sequel) :
    sumOf Task.calls (machine.follow sequel).tasks =
      sequel.calls + sumOf Task.calls machine.tasks := by
  cases sequel with
  | fire handler =>
      rw [follow, calls_fire]
      exact (Nat.zero_add _).symm
  | nothing => exact (Nat.zero_add _).symm
  | finalize => rfl
  | store slot reply => rfl

/-- A task plans the calls that it asks for. -/
theorem calls_perform
    (machine : Machine)
    (task : Task) :
    sumOf Task.calls (machine.perform task).tasks =
      (task.deed machine).calls + sumOf Task.calls machine.tasks := by
  cases task with
  | finalize =>
      cases hand : machine.hand with
      | nil =>
          simp only [perform, finalize, Task.deed, hand]
          exact (Nat.zero_add _).symm
      | cons reply below =>
          simp only [perform, finalize_eq hand, Task.deed, hand]
          cases reply.finalize.value.2 with
          | none => exact (Nat.zero_add _).symm
          | some handler => rfl
  | play handler script =>
      cases script with
      | nil => exact (Nat.zero_add _).symm
      | cons line rest =>
          rcases line with ⟨word, step⟩
          simp only [perform, play, Task.deed]
          cases hand : machine.hand with
          | nil => exact (Nat.zero_add _).symm
          | cons reply below =>
              simp only [calls_follow, step.calls_sequel]
              simp only [note, sumOf, Task.calls, Nat.zero_add]
  | report handler word answer => exact (Nat.zero_add _).symm
  | shelve slot guarded =>
      simp only [perform, shelve, Task.deed]
      cases hand : machine.hand with
      | nil => exact (Nat.zero_add _).symm
      | cons reply below =>
          rcases machine.session.slots.get? slot with _ | ⟨former, _ | _⟩
          · exact (Nat.zero_add _).symm
          · exact (Nat.zero_add _).symm
          · simp only [sumOf, Task.calls, Nat.zero_add]
            rfl
  | discard =>
      simp only [perform, Task.deed]
      cases machine.hand <;> exact (Nat.zero_add _).symm

end Machine

/-- A command plans the calls that it asks for. -/
theorem Command.calls_start
    (session : Session)
    (command : Command) :
    sumOf Task.calls (command.start session).2.tasks =
      (command.deed session).calls := by
  cases command with
  | create slot => rfl
  | adopt slot message => rfl
  | act slot action =>
      simp only [start, deed]
      cases session.slots.get? slot with
      | none => rfl
      | some content =>
          cases action with
          | drop =>
              simp only [Action.start, Session.letGo, Action.deed]
              split <;> rfl
          | move target => rfl
          | guard | unguard | release | deliver =>
              simp only [Action.start, Action.deed]
              split <;> rfl
          | ask step =>
              simp only [Action.start, Action.deed, Session.ask]
              rw [← step.calls_sequel]
              split
              · next target moved carried =>
                  rw [carried]
                  rfl
              · rw [Machine.calls_follow]
                rfl

/-- A step asks for finalizing only by the step of that name. -/
theorem Deed.eq_finalize_of_called
    {session : Session}
    {reply other : Response}
    {step : Step}
    (called : (Deed.stepped session reply step).called? = some other) :
    step = .finalize ∧ reply = other := by
  cases step with
  | finalize => exact ⟨rfl, Option.some.inj called⟩
  | _ => contradiction

/-- What is let go comes to hand, to be finalized and discarded next. -/
theorem Turn.after_letGo
    {turn : Turn}
    {kept : Response}
    (lets : turn.deed = .letGo kept) :
    ∃ below,
      turn.after.hand = kept :: below ∧
        turn.after.tasks = .finalize :: .discard :: turn.before.tasks := by
  have does := turn.does
  rw [lets] at does
  cases does with
  | dropped present =>
      refine ⟨[], ?_, ?_⟩ <;>
        simp only [after, before, Command.start, present, Action.start,
          Session.letGo, if_true, Machine.holding, Machine.atRest]
  | @evicted _ _ _ below _ hand present =>
      refine ⟨below, ?_, ?_⟩ <;>
        simp only [after, before, Machine.perform, Machine.shelve, hand, present]

/-- A call that a turn asks for is the next task, on the reply that it is for. -/
theorem Turn.next_of_called
    {turn : Turn}
    {reply : Response}
    (called : turn.deed.called? = some reply) :
    ∃ below later,
      turn.after.hand = reply :: below ∧
        turn.after.tasks = .finalize :: later := by
  have does := turn.does
  generalize done : turn.deed = deed at called does
  cases does with
  | dropped | evicted =>
      obtain rfl := Option.some.inj called
      obtain ⟨below, hand, tasks⟩ := after_letGo done
      exact ⟨below, _, hand, tasks⟩
  | asked present step =>
      obtain ⟨rfl, rfl⟩ := Deed.eq_finalize_of_called called
      simp only [after, Command.start, present]
      exact ⟨_, _, rfl, rfl⟩
  | played hand handler word step rest =>
      obtain ⟨rfl, rfl⟩ := Deed.eq_finalize_of_called called
      simp only [after, Machine.perform, Machine.play, hand]
      exact ⟨_, _, rfl, rfl⟩
  | _ => contradiction

/-! ## While work is left, a reply is in hand -/

/-- Wherever work is left, some of it puts a reply down. -/
def Grounded : List Task → Prop
  | [] => True
  | task :: later => 0 < sumOf Task.putsDown (task :: later) ∧ Grounded later

namespace Machine

theorem grounded_fire
    {machine : Machine}
    (grounded : Grounded machine.tasks)
    (left : 0 < sumOf Task.putsDown machine.tasks)
    (handler : Handler) :
    Grounded (machine.fire handler).tasks := by
  unfold fire
  split
  · exact grounded
  · refine ⟨?_, grounded⟩
    simp only [sumOf]
    omega

theorem grounded_follow
    {machine : Machine}
    (grounded : Grounded machine.tasks)
    (left : 0 < sumOf Task.putsDown machine.tasks)
    (sequel : Sequel) :
    Grounded (machine.follow sequel).tasks := by
  cases sequel with
  | fire handler => exact grounded_fire grounded left handler
  | nothing => exact grounded
  | finalize | store =>
      refine ⟨?_, grounded⟩
      simp only [sumOf]
      omega

/-- Work that a task leaves or adds still puts a reply down in the end. -/
theorem grounded_perform
    {machine : Machine}
    {task : Task}
    (grounded : Grounded (task :: machine.tasks)) :
    Grounded (machine.perform task).tasks := by
  obtain ⟨left, rest⟩ := grounded
  cases task with
  | finalize =>
      simp only [sumOf, Task.putsDown, Nat.zero_add] at left
      simp only [perform, finalize]
      split
      · exact rest
      · split
        · apply grounded_fire
          · exact rest
          · exact left
        · exact rest
  | play handler script =>
      simp only [sumOf, Task.putsDown, Nat.zero_add] at left
      cases script with
      | nil => exact rest
      | cons line later =>
          rcases line with ⟨word, step⟩
          simp only [perform, play]
          split
          · exact rest
          · apply grounded_follow
            · simpa [note, Grounded, sumOf, Task.putsDown] using ⟨left, rest⟩
            · simpa [note, sumOf, Task.putsDown] using left
  | report handler word answer => exact rest
  | shelve slot guarded =>
      simp only [perform, shelve]
      split
      · exact rest
      · split
        · refine ⟨?_, ?_, rest⟩ <;>
            simp only [sumOf, Task.putsDown] <;>
            omega
        · exact rest
  | discard => exact rest

end Machine

theorem Command.grounded_start
    (session : Session)
    (command : Command) :
    Grounded (command.start session).2.tasks := by
  have shelved :
      ∀ (slot : String) (guarded : Bool), Grounded [.shelve slot guarded] :=
    fun _ _ => ⟨Nat.one_pos, trivial⟩
  cases command with
  | create slot => exact shelved slot false
  | adopt slot message => exact shelved slot false
  | act slot action =>
      simp only [start]
      cases session.slots.get? slot with
      | none => trivial
      | some content =>
          cases action with
          | drop =>
              simp only [Action.start, Session.letGo]
              split
              · exact ⟨Nat.one_pos, Nat.one_pos, trivial⟩
              · trivial
          | move target => exact shelved target content.guarded
          | guard =>
              simp only [Action.start]
              split
              · trivial
              · exact shelved slot true
          | unguard =>
              simp only [Action.start]
              split
              · exact shelved slot false
              · trivial
          | release | deliver =>
              simp only [Action.start]
              split <;> trivial
          | ask step =>
              simp only [Action.start, Session.ask]
              split
              · exact ⟨Nat.two_pos, shelved _ false⟩
              · apply Machine.grounded_follow
                · exact shelved slot content.guarded
                · exact Nat.one_pos

namespace Run

variable {turns : List Turn} {machine : Machine}

theorem grounded (run : Run turns machine) : Grounded machine.tasks := by
  induction run with
  | start => trivial
  | order run rested command inductionHypothesis =>
      exact command.grounded_start _
  | work run planned inductionHypothesis =>
      apply Machine.grounded_perform
      rw [planned] at inductionHypothesis
      exact inductionHypothesis

/-- In every run there is a reply in hand while work is left. -/
theorem exists_hand
    (run : Run turns machine)
    {task : Task}
    {later : List Task}
    (planned : machine.tasks = task :: later) :
    ∃ reply below, machine.hand = reply :: below := by
  have balanced := run.balanced
  have grounded := run.grounded
  rw [planned] at grounded
  rw [Machine.Balanced, planned] at balanced
  exact List.exists_cons_of_length_pos (balanced ▸ grounded.1)

/-- What is carried out in a run was planned with a reply in hand. -/
theorem exists_hand_of_mem
    (run : Run turns machine)
    {before : Machine}
    {task : Task}
    (carriedOut : .work before task ∈ turns) :
    ∃ reply below, before.hand = reply :: below := by
  induction run with
  | start => contradiction
  | order run rested command inductionHypothesis =>
      rcases List.mem_append.mp carriedOut with earlier | now
      · exact inductionHypothesis earlier
      · have other := List.mem_singleton.mp now
        contradiction
  | work run planned inductionHypothesis =>
      rcases List.mem_append.mp carriedOut with earlier | now
      · exact inductionHypothesis earlier
      · obtain ⟨rfl, rfl⟩ := Turn.work.inj (List.mem_singleton.mp now)
        exact run.exists_hand planned

end Run

/-! ## What is counted -/

/-- The events of a turn are what it adds to the trace. -/
theorem Turn.events_of_trace
    {turn : Turn}
    {added : List Event}
    (shape : turn.after.trace = turn.before.trace ++ added) :
    turn.events = added :=
  List.append_cancel_left (turn.trace_after.symm.trans shape)

/-- Following a sequel notes nothing. -/
theorem Machine.exists_trace_follow
    (machine : Machine)
    (sequel : Sequel) :
    ∃ fired,
      (machine.follow sequel).trace = machine.trace ++ fired ∧
        ∀ note, .noted note ∉ fired := by
  have silent :
      ∃ fired : List Event,
        machine.trace = machine.trace ++ fired ∧
          ∀ note, .noted note ∉ fired :=
    ⟨[], (List.append_nil _).symm, fun _ => List.not_mem_nil⟩
  cases sequel with
  | fire handler =>
      simp only [follow, fire]
      split
      · exact silent
      · refine ⟨_, rfl, ?_⟩
        intro note member
        have other := List.mem_singleton.mp member
        contradiction
  | nothing | finalize | store => exact silent

/-- A step notes no finalize call. -/
theorem Step.notes_apply
    (step : Step)
    (session : Session)
    (reply : Response) :
    ∀ note ∈ (step.apply session reply).notes, ¬note.IsCall := by
  have silent :
      ∀ notes : List Note, notes = [] → ∀ note ∈ notes, ¬note.IsCall := by
    rintro notes rfl note member
    contradiction
  have single :
      ∀ {notes : List Note} {only : Note},
        notes = [only] → ¬only.IsCall → ∀ note ∈ notes, ¬note.IsCall := by
    rintro notes only rfl other
    exact List.forall_mem_singleton.mpr other
  cases step with
  | setField name octets =>
      simp only [apply]
      cases reply.setField name octets <;> exact silent _ rfl
  | setStatus code =>
      simp only [apply]
      cases reply.setStatus code <;> exact silent _ rfl
  | frame =>
      simp only [apply]
      split <;> exact silent _ rfl
  | insertPayload key value =>
      simp only [apply]
      cases reply.payload.insert? key value <;> exact silent _ rfl
  | pushPayload value =>
      simp only [apply]
      cases reply.payload.push? value <;> exact silent _ rfl
  | revalidate =>
      simp only [apply, Effect.noting, Buffered.revalidate]
      split
      · exact silent _ rfl
      · split
        · exact
            List.forall_mem_cons.mpr ⟨by decide, single rfl (by decide)⟩
        · exact silent _ rfl
  | releaseHandler name =>
      rw [apply, Session.releaseHandler_eq]
      exact single rfl (by decide)
  | invokeHandler name =>
      rw [apply, Session.invokeHandler_eq]
      exact silent _ rfl
  | attachHandler name =>
      simp only [apply, Session.attachHandler]
      split
      · exact single rfl (by decide)
      · exact silent _ rfl
  | releaseProbe name =>
      rw [apply, Session.releaseProbe_eq]
      exact silent _ rfl
  | attachProbe name =>
      rw [apply, Session.attachProbe_eq]
      exact silent _ rfl
  | checkProbe name =>
      rw [apply, Session.checkProbe_eq]
      exact silent _ rfl
  | clear | setHandler | relocate => exact single rfl (by decide)
  | _ => exact silent _ rfl

/-- A task other than finalizing notes no finalize call. -/
theorem Machine.notes_perform
    (machine : Machine)
    {task : Task}
    (other : task ≠ .finalize) :
    ∃ added,
      (machine.perform task).trace = machine.trace ++ added ∧
        ∀ note, .noted note ∈ added → ¬note.IsCall := by
  have silent :
      ∀ after : List Event, after = machine.trace →
        ∃ added,
          after = machine.trace ++ added ∧
            ∀ note, .noted note ∈ added → ¬note.IsCall := by
    rintro after rfl
    refine ⟨[], (List.append_nil _).symm, ?_⟩
    intro note member
    contradiction
  cases task with
  | finalize => contradiction
  | play handler script =>
      cases script with
      | nil => exact silent _ rfl
      | cons line rest =>
          rcases line with ⟨word, step⟩
          simp only [perform, play]
          cases hand : machine.hand with
          | nil => exact silent _ rfl
          | cons reply below =>
              obtain ⟨fired, shape, nothing⟩ :=
                exists_trace_follow
                  (({ session := (step.apply machine.session reply).session
                      hand :=
                        (step.apply machine.session reply).reply :: below
                      tasks :=
                        .report handler word
                            (step.apply machine.session reply).answer ::
                          .play handler rest :: machine.tasks
                      trace := machine.trace } : Machine).note
                    (step.apply machine.session reply).notes)
                  (step.apply machine.session reply).sequel
              refine ⟨_, shape.trans (List.append_assoc ..), ?_⟩
              intro note member
              rcases List.mem_append.mp member with noted | followed
              · exact
                  step.notes_apply machine.session reply note
                    (Event.mem_of_noted noted)
              · exact absurd followed (nothing note)
  | report handler word answer =>
      refine ⟨_, rfl, ?_⟩
      intro note member
      have other := List.mem_singleton.mp member
      contradiction
  | shelve slot guarded => exact silent _ (machine.trace_shelve slot guarded)
  | discard => exact silent _ rfl

/-- Beginning a command notes no finalize call. -/
theorem Command.notes_start
    (session : Session)
    (command : Command) :
    ∀ note, .noted note ∈ (command.start session).2.trace → ¬note.IsCall := by
  have silent :
      ∀ trace : List Event, trace = [] →
        ∀ note, .noted note ∈ trace → ¬note.IsCall := by
    rintro trace rfl note member
    contradiction
  cases command with
  | create slot => exact silent _ rfl
  | adopt slot message => exact silent _ rfl
  | act slot action =>
      simp only [start]
      cases session.slots.get? slot with
      | none => exact silent _ rfl
      | some content =>
          cases action with
          | drop =>
              simp only [Action.start, Session.letGo]
              split <;> exact silent _ rfl
          | move target => exact silent _ rfl
          | guard | release =>
              simp only [Action.start]
              split <;> exact silent _ rfl
          | unguard =>
              simp only [Action.start]
              split
              · intro note member
                obtain rfl :=
                  List.mem_singleton.mp (Event.mem_of_noted member)
                decide
              · exact silent _ rfl
          | deliver =>
              simp only [Action.start]
              split
              · exact silent _ rfl
              · simp only [Buffered.deliver]
                split
                · exact silent _ rfl
                · intro note member
                  obtain rfl :=
                    List.mem_singleton.mp (Event.mem_of_noted member)
                  decide
          | ask step =>
              have own :=
                step.notes_apply (session.emptied slot) content.reply
              simp only [Action.start, Session.ask]
              split
              · intro note member
                exact own note (Event.mem_of_noted member)
              · obtain ⟨fired, shape, nothing⟩ :=
                  Machine.exists_trace_follow
                    ((Machine.holding
                        (step.apply (session.emptied slot)
                          content.reply).session
                        (step.apply (session.emptied slot) content.reply).reply
                        [.shelve slot content.guarded]).note
                      (step.apply (session.emptied slot) content.reply).notes)
                    (step.apply (session.emptied slot) content.reply).sequel
                rw [shape]
                intro note member
                rcases List.mem_append.mp member with noted | followed
                · exact own note (Event.mem_of_noted noted)
                · exact absurd followed (nothing note)

/-- A turn that carries out no finalize call notes none. -/
theorem Turn.notes_of_other
    {turn : Turn}
    (other : ∀ before, turn ≠ .work before .finalize) :
    ∀ note, .noted note ∈ turn.events → ¬note.IsCall := by
  cases turn with
  | order session command =>
      have added :
          (Turn.order session command).events =
            (command.start session).2.trace :=
        events_of_trace rfl
      rw [added]
      exact command.notes_start session
  | work before task =>
      have notFinalize : task ≠ .finalize := by
        rintro rfl
        exact other before rfl
      obtain ⟨added, shape, none⟩ := before.notes_perform notFinalize
      have same : (Turn.work before task).events = added :=
        events_of_trace shape
      rw [same]
      exact none

/-- A turn that carries out no finalize call counts none. -/
theorem Turn.no_call_of_other
    {turn : Turn}
    (other : ∀ before, turn ≠ .work before .finalize) :
    ∀ counter ∈ counters turn.events, ¬counter.IsCall := by
  intro counter member
  exact notes_of_other other _ (mem_counters_iff.mp member)

/-- How many finalize calls a turn carries out. -/
def Turn.carriedOut : Turn → Nat
  | .order _ _ => 0
  | .work _ task => task.calls

/-- A turn counts one completion for a call that it carries out, and no other. -/
theorem Turn.completions_events
    (turn : Turn)
    (inHand :
      ∀ before task, turn = .work before task →
        ∃ reply below, before.hand = reply :: below) :
    completions .buffered (counters turn.events) +
          (counters turn.events).count (.finalizedTwice .buffered) =
        turn.carriedOut ∧
      completions .streaming (counters turn.events) = 0 ∧
      (counters turn.events).count (.finalizedTwice .streaming) = 0 := by
  by_cases called : ∃ before, turn = .work before .finalize
  · obtain ⟨before, rfl⟩ := called
    obtain ⟨reply, below, hand⟩ := inHand before .finalize rfl
    obtain ⟨first, again⟩ :=
      completions_ofCall .buffered reply.completed reply.message.status
    rw [counters_finalize hand, first, again]
    refine ⟨?_, completions_ofCall_of_ne (by decide) ..⟩
    cases reply.completed <;> rfl
  · have other : ∀ before, turn ≠ .work before .finalize :=
      fun before same => called ⟨before, same⟩
    have quiet := no_call_of_other other
    have none : turn.carriedOut = 0 := by
      cases turn with
      | order session command => rfl
      | work before task =>
          cases task with
          | finalize => exact absurd rfl (other before)
          | _ => rfl
    obtain ⟨first, again⟩ := completions_of_no_call .buffered quiet
    rw [first, again, none]
    exact ⟨rfl, completions_of_no_call .streaming quiet⟩

/--
In every run the finalize calls that were asked for are those that were counted
and those still planned.
-/
theorem Run.calls_counted
    {turns : List Turn}
    {machine : Machine}
    (run : Run turns machine) :
    sumOf Deed.calls (turns.map Turn.deed) =
        completions .buffered (counters (eventsOf turns)) +
          (counters (eventsOf turns)).count (.finalizedTwice .buffered) +
          sumOf Task.calls machine.tasks ∧
      completions .streaming (counters (eventsOf turns)) = 0 ∧
      (counters (eventsOf turns)).count (.finalizedTwice .streaming) = 0 := by
  induction run with
  | start =>
      have none : ∀ variant, completions variant [] = 0 :=
        fun _ => completions_eq_zero fun _ => List.not_mem_nil
      have nothing : counters (eventsOf []) = [] := rfl
      rw [nothing, none, none]
      exact ⟨rfl, rfl, rfl⟩
  | @order turns machine run rested command inductionHypothesis =>
      obtain ⟨calls, streaming, again⟩ := inductionHypothesis
      obtain ⟨counted, none, neither⟩ :=
        Turn.completions_events (.order machine.session command) (by simp)
      have planned := command.calls_start machine.session
      simp only [rested, sumOf] at calls
      simp only [Turn.carriedOut] at counted
      simp only [List.map_append, List.map_cons, List.map_nil, sumOf_append,
        sumOf, eventsOf, List.flatMap_append, List.flatMap_singleton,
        counters_append, completions_append, List.count_append, Turn.deed,
        planned] at calls streaming again ⊢
      omega
  | @work turns machine run task later planned inductionHypothesis =>
      obtain ⟨calls, streaming, again⟩ := inductionHypothesis
      have inHand :
          ∀ before other,
            Turn.work { machine with tasks := later } task =
                .work before other →
              ∃ reply below, before.hand = reply :: below := by
        rintro before other same
        obtain ⟨rfl, rfl⟩ := Turn.work.inj same
        exact run.exists_hand planned
      obtain ⟨counted, none, neither⟩ :=
        Turn.completions_events (.work { machine with tasks := later } task)
          inHand
      have left :=
        Machine.calls_perform { machine with tasks := later } task
      simp only [planned, sumOf] at calls
      simp only [Turn.carriedOut] at counted
      simp only [List.map_append, List.map_cons, List.map_nil, sumOf_append,
        sumOf, eventsOf, List.flatMap_append, List.flatMap_singleton,
        counters_append, completions_append, List.count_append, Turn.deed,
        left] at calls streaming again ⊢
      omega

end Reply
