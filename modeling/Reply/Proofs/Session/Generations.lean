import Reply.Proofs.Session.Calls
import Reply.Proofs.Session.Completion

namespace Reply

/-!
# Generations

A reply is completed once in each generation.  A generation begins when the reply
is made, when it is cleared and when a handler is attached to it: each makes it
pending again, and completing it ends that.
-/

/-! ## Buffered replies -/

/-- The identity of a reply that is pending. -/
def Buffered.pending (reply : Response) : List Nat :=
  if reply.completed then [] else [reply.id]

namespace Deed

/-- The replies whose completion a deed counts. -/
def completed : Deed → List Nat
  | .finalized reply => reply.pending
  | _ => []

/--
The replies of which a deed begins a generation: those it makes, clears or
attaches a handler to.
-/
def begun : Deed → List Nat
  | .stepped _ reply .clear => [reply.id]
  | .stepped _ reply (.setHandler _ _) => [reply.id]
  | .stepped session reply (.attachHandler name) =>
      if (session.handlers.get? name).isSome then [reply.id] else []
  | deed => deed.born

end Deed

theorem Buffered.pending_of_completed
    {reply : Response}
    (completed : reply.completed = true) :
    reply.pending = [] :=
  if_pos completed

/-- A reply is pending at most once. -/
theorem Buffered.count_pending_le
    (reply : Response)
    (id : Nat) :
    reply.pending.count id ≤ [reply.id].count id := by
  unfold pending
  split
  · exact Nat.zero_le _
  · exact Nat.le_refl _

theorem Buffered.pending_congr
    {before after : Response}
    (completed : after.completed = before.completed)
    (id : after.id = before.id) :
    after.pending = before.pending := by
  rw [pending, pending, completed, id]

/-- A step makes a reply pending only by beginning a generation. -/
theorem Step.count_pending_le
    (step : Step)
    (session : Session)
    (reply : Response)
    (id : Nat) :
    sumOf (fun left : Response => left.pending.count id)
        (step.apply session reply).replies ≤
      reply.pending.count id +
        (Deed.stepped session reply step).begun.count id := by
  have single :
      ∀ {effect : Effect},
        effect.sequel.replies = [] →
        effect.reply.pending.count id ≤
            reply.pending.count id +
              (Deed.stepped session reply step).begun.count id →
          sumOf (fun left : Response => left.pending.count id)
              effect.replies ≤
            reply.pending.count id +
              (Deed.stepped session reply step).begun.count id := by
    intro effect nothing bound
    rw [Effect.replies, nothing]
    exact bound
  cases content : step.isContent with
  | true =>
      have effect := step.onContent session reply content
      apply single
      · rw [effect.sequel]
        rfl
      · rw [Buffered.pending_congr effect.kept.completed effect.kept.id]
        exact Nat.le_add_right _ _
  | false =>
      cases step with
      | clear | setHandler => exact Nat.le_add_left _ _
      | finalize | setProbe => exact Nat.le_refl _
      | releaseHandler name =>
          rw [apply, Session.releaseHandler_eq]
          refine single rfl ?_
          rw [Buffered.pending_of_completed rfl]
          exact Nat.zero_le _
      | invokeHandler name =>
          rw [apply, Session.invokeHandler_eq, Effect.replies,
            Sequel.replies_firing]
          exact Nat.le_refl _
      | attachHandler name =>
          simp only [apply, Session.attachHandler, Deed.begun]
          cases session.handlers.get? name with
          | none => exact Nat.le_refl _
          | some handler => exact Nat.le_add_left _ _
      | releaseProbe name =>
          rw [apply, Session.releaseProbe_eq]
          exact Nat.le_refl _
      | attachProbe name =>
          rw [apply, Session.attachProbe_eq]
          exact Nat.le_refl _
      | relocate slot =>
          have moved :
              (reply.relocate session.nextId).value.1.pending =
                reply.pending :=
            rfl
          have blank :
              (reply.relocate session.nextId).value.2.pending =
                [session.nextId] :=
            rfl
          simp only [apply, Session.relocate, Effect.replies, Sequel.replies,
            sumOf, moved, blank, Deed.begun, Deed.born]
          omega
      | _ => contradiction

/-- What a deed completes was pending or begins with it. -/
theorem Deed.count_completed_le (deed : Deed) (id : Nat) :
    sumOf (fun reply : Response => reply.pending.count id) deed.yielded +
        deed.completed.count id ≤
      sumOf (fun reply : Response => reply.pending.count id) deed.used +
        deed.begun.count id := by
  cases deed with
  | idle | letGo => exact Nat.le_refl 0
  | destroyed reply => exact Nat.zero_le _
  | made reply =>
      have once := reply.count_pending_le id
      simp only [yielded, used, completed, begun, born, sumOf, List.count_nil]
      omega
  | stepped session reply step =>
      have law := step.count_pending_le session reply id
      simp only [yielded, used, completed, sumOf, List.count_nil]
      omega
  | finalized reply =>
      have ended : reply.finalize.value.1.pending = [] := by
        apply Buffered.pending_of_completed
        rw [Buffered.finalize_value]
        split
        · next completed =>
            rw [(Buffered.Kept.tagged reply).completed, completed]
        · rfl
      simp only [yielded, used, completed, begun, born, sumOf, ended,
        List.count_nil]
      omega
  | unwrapped fresh reply =>
      have moved :
          (reply.relocate fresh).value.1.pending = reply.pending :=
        rfl
      simp only [yielded, used, completed, begun, born, sumOf, moved,
        List.count_nil]
      omega

/-- In every run a reply is completed at most once in each of its generations. -/
theorem Run.count_completed_le
    {turns : List Turn}
    {machine : Machine}
    (run : Run turns machine)
    (id : Nat) :
    ((turns.map Turn.deed).flatMap Deed.completed).count id ≤
      ((turns.map Turn.deed).flatMap Deed.begun).count id := by
  have covered := run.covered fun deed => deed.count_completed_le id
  rw [count_flatMap_eq_sumOf, count_flatMap_eq_sumOf]
  exact Nat.le_trans (Nat.le_add_left _ _) covered

/-- The completions that a turn counts are those of its deed. -/
theorem Turn.length_completed (turn : Turn) :
    turn.deed.completed.length =
      completions .buffered (counters turn.events) := by
  by_cases called : ∃ before, turn = .work before .finalize
  · obtain ⟨before, rfl⟩ := called
    cases hand : before.hand with
    | nil =>
        rw [events_finalize_nil hand, deed, Task.deed, hand]
        exact (completions_eq_zero fun _ => List.not_mem_nil).symm
    | cons reply below =>
        rw [counters_finalize hand, (completions_ofCall ..).1, deed, Task.deed,
          hand]
        simp only [Deed.completed, Buffered.pending]
        cases reply.completed <;> rfl
  · have other : ∀ before, turn ≠ .work before .finalize :=
      fun before same => called ⟨before, same⟩
    rw [(completions_of_no_call .buffered (no_call_of_other other)).1]
    have does := turn.does
    generalize turn.deed = deed at does ⊢
    cases does with
    | @finalized machine => exact absurd rfl (other machine)
    | _ => rfl

/-- All completions that turns count are those of their deeds. -/
theorem length_completed (turns : List Turn) :
    ((turns.map Turn.deed).flatMap Deed.completed).length =
      completions .buffered (counters (eventsOf turns)) := by
  induction turns with
  | nil => exact (completions_eq_zero fun _ => List.not_mem_nil).symm
  | cons turn rest inductionHypothesis =>
      rw [List.map_cons, List.flatMap_cons, List.length_append,
        turn.length_completed, inductionHypothesis, eventsOf, eventsOf,
        List.flatMap_cons, counters_append, completions_append]

/-! ## Streamed replies -/

namespace Streaming

/-- The counter that an event increments, if it does. -/
def Event.counter? : Event → Option Counter
  | .noted (.counted counter) => some counter
  | _ => none

/-- The counters that events increment, in order. -/
def counters (trace : List Event) : List Counter :=
  trace.filterMap Event.counter?

theorem counters_append (first second : List Event) :
    counters (first ++ second) = counters first ++ counters second :=
  List.filterMap_append

/-- What is counted among events is what they note as counted. -/
theorem mem_counters_iff
    {trace : List Event}
    {counter : Counter} :
    counter ∈ counters trace ↔ .noted (.counted counter) ∈ trace := by
  rw [counters, List.mem_filterMap]
  constructor
  · rintro ⟨event, member, counts⟩
    cases event with
    | noted note =>
        cases note with
        | counted held =>
            obtain rfl := Option.some.inj counts
            exact member
        | logged => contradiction
    | fired => contradiction
  · intro member
    exact ⟨_, member, rfl⟩

/-- How many finalize calls a step is. -/
def Step.calls : Step → Nat
  | .finalize => 1
  | _ => 0

/-- How many generations a step begins. -/
def Step.begins (session : Session) : Step → Nat
  | .clear => 1
  | .setHandler _ _ => 1
  | .attachHandler name =>
      if (session.handlers.get? name).isSome then 1 else 0
  | _ => 0

/-- How many completions a session waits for. -/
def Session.pending (session : Session) : Nat :=
  if session.reply.completed then 0 else 1

/-- A finalize call counts one completion. -/
theorem Session.counters_finalize (session : Session) :
    counters session.finalize.trace =
      [.ofCall .streaming session.reply.completed
        session.reply.message.status] := by
  simp only [finalize, Streamed.finalize]
  cases session.reply.completed with
  | true => rfl
  | false =>
      cases session.reply.handler <;> rfl

/-- Finalizing a completed reply changes nothing and fires nothing. -/
theorem Session.finalize_of_completed
    {session : Session}
    (completed : session.reply.completed = true) :
    session.finalize.session = session ∧
      firings session.finalize.trace = [] := by
  simp only [finalize, Streamed.finalize, completed]
  exact ⟨rfl, rfl⟩

/-- A step other than finalizing notes no finalize call. -/
theorem Step.notes_of_other
    (session : Session)
    {step : Step}
    (other : step ≠ .finalize) :
    ∀ note, .noted note ∈ (session.perform step).trace → ¬note.IsCall := by
  have silent :
      ∀ trace : List Event, trace = [] →
        ∀ note, .noted note ∈ trace → ¬note.IsCall := by
    rintro trace rfl note member
    contradiction
  have noting :
      ∀ {trace : List Event} {notes : List Note},
        trace = notes.map Event.noted →
          (∀ note ∈ notes, ¬note.IsCall) →
            ∀ note, .noted note ∈ trace → ¬note.IsCall := by
    rintro trace notes rfl others note member
    obtain ⟨taken, present, same⟩ := List.mem_map.mp member
    exact Event.noted.inj same ▸ others taken present
  cases step with
  | finalize => contradiction
  | setField name octets =>
      simp only [Session.perform]
      cases session.reply.setField name octets <;> exact silent _ rfl
  | setStatus code =>
      simp only [Session.perform]
      cases session.reply.setStatus code <;> exact silent _ rfl
  | write octets =>
      simp only [Session.perform, Streamed.write]
      cases session.reply.body.write octets with
      | ok body => exact silent _ rfl
      | error failure =>
          exact
            noting rfl
              (List.forall_mem_cons.mpr
                ⟨by decide, List.forall_mem_singleton.mpr (by decide)⟩)
  | writeBody octets =>
      simp only [Session.perform]
      cases session.reply.body.write octets <;> exact silent _ rfl
  | frame =>
      simp only [Session.perform]
      split <;> exact silent _ rfl
  | releaseHandler name =>
      rw [Session.perform, Session.releaseHandler_eq]
      exact silent _ rfl
  | invokeHandler name =>
      simp only [Session.perform, Session.invokeHandler]
      split
      · intro note member
        have other := List.mem_singleton.mp member
        contradiction
      · exact silent _ rfl
  | attachHandler name =>
      simp only [Session.perform, Session.attachHandler]
      split
      · exact noting rfl (List.forall_mem_singleton.mpr (by decide))
      · exact silent _ rfl
  | releaseProbe name =>
      rw [Session.perform, Session.releaseProbe_eq]
      exact silent _ rfl
  | attachProbe name =>
      rw [Session.perform, Session.attachProbe_eq]
      exact silent _ rfl
  | clear | setHandler =>
      exact noting rfl (List.forall_mem_singleton.mpr (by decide))
  | _ => exact silent _ rfl

/-- A step other than finalizing counts no finalize call. -/
theorem Step.no_call_of_other
    (session : Session)
    {step : Step}
    (other : step ≠ .finalize) :
    ∀ counter ∈ counters (session.perform step).trace, ¬counter.IsCall := by
  intro counter member
  exact notes_of_other session other _ (mem_counters_iff.mp member)

/-- A step counts one completion if it finalizes, and no other. -/
theorem Step.completions_perform
    (step : Step)
    (session : Session) :
    completions .streaming (counters (session.perform step).trace) +
          (counters (session.perform step).trace).count
            (.finalizedTwice .streaming) =
        step.calls ∧
      completions .buffered (counters (session.perform step).trace) = 0 ∧
      (counters (session.perform step).trace).count
        (.finalizedTwice .buffered) = 0 := by
  by_cases called : step = .finalize
  · subst called
    obtain ⟨first, again⟩ :=
      completions_ofCall .streaming session.reply.completed
        session.reply.message.status
    rw [Session.perform, session.counters_finalize, first, again]
    refine ⟨?_, completions_ofCall_of_ne (by decide) ..⟩
    cases session.reply.completed <;> rfl
  · have quiet := no_call_of_other session called
    have none : step.calls = 0 := by
      cases step with
      | finalize => contradiction
      | _ => rfl
    obtain ⟨first, again⟩ := completions_of_no_call .streaming quiet
    rw [first, again, none]
    exact ⟨rfl, completions_of_no_call .buffered quiet⟩

/-- What a step completes was pending or begins with it. -/
theorem Step.completions_le
    (step : Step)
    (session : Session) :
    completions .streaming (counters (session.perform step).trace) +
        (session.perform step).session.pending ≤
      session.pending + step.begins session := by
  have ended :
      ∀ {left : Session}, left.reply.completed = true → left.pending = 0 :=
    fun completed => if_pos completed
  have atMostOne : ∀ left : Session, left.pending ≤ 1 := by
    intro left
    unfold Session.pending
    split
    · exact Nat.zero_le 1
    · exact Nat.le_refl 1
  by_cases called : step = .finalize
  · subst called
    have completed : session.finalize.session.reply.completed = true := by
      simp only [Session.finalize, Streamed.finalize]
      cases finished : session.reply.completed with
      | true => exact finished
      | false => cases session.reply.handler <;> rfl
    rw [Session.perform, session.counters_finalize, (completions_ofCall ..).1,
      ended completed]
    exact Nat.le_refl _
  · rw [(completions_of_no_call .streaming (no_call_of_other session called)).1,
      Nat.zero_add]
    cases content : step.isContent with
    | true =>
        have same : (session.perform step).session.pending = session.pending := by
          rw [Session.pending, completed_of_content session content]
          rfl
        rw [same]
        exact Nat.le_add_right _ _
    | false =>
        cases step with
        | clear | setHandler =>
            exact Nat.le_trans (atMostOne _) (Nat.le_add_left _ _)
        | setProbe => exact Nat.le_refl _
        | releaseHandler name =>
            rw [Session.perform, Session.releaseHandler_eq, ended rfl]
            exact Nat.zero_le _
        | invokeHandler name =>
            simp only [Session.perform, Session.invokeHandler]
            split <;> exact Nat.le_refl _
        | attachHandler name =>
            simp only [Session.perform, Session.attachHandler, begins]
            cases session.handlers.get? name with
            | none => exact Nat.le_refl _
            | some handler =>
                exact Nat.le_trans (atMostOne _) (Nat.le_add_left _ _)
        | releaseProbe name =>
            rw [Session.perform, Session.releaseProbe_eq]
            exact Nat.le_refl _
        | attachProbe name =>
            rw [Session.perform, Session.attachProbe_eq]
            exact Nat.le_refl _
        | _ => contradiction

namespace Run

variable {capacity : Nat} {turns : List Turn} {session : Session}

/-- In every run each finalize call is counted. -/
theorem calls_counted (run : Run capacity turns session) :
    sumOf (fun turn => turn.step.calls) turns =
        completions .streaming (counters (turns.flatMap Turn.events)) +
          (counters (turns.flatMap Turn.events)).count
            (.finalizedTwice .streaming) ∧
      completions .buffered (counters (turns.flatMap Turn.events)) = 0 ∧
      (counters (turns.flatMap Turn.events)).count
        (.finalizedTwice .buffered) = 0 := by
  induction run with
  | start =>
      have none : ∀ variant, completions variant [] = 0 :=
        fun _ => completions_eq_zero fun _ => List.not_mem_nil
      have nothing : counters (List.flatMap Turn.events []) = [] := rfl
      rw [nothing, none, none]
      exact ⟨rfl, rfl, rfl⟩
  | @step turns session run step inductionHypothesis =>
      obtain ⟨calls, buffered, again⟩ := inductionHypothesis
      obtain ⟨counted, none, neither⟩ := step.completions_perform session
      simp only [List.flatMap_append, List.flatMap_singleton, counters_append,
        completions_append, List.count_append, sumOf_append, sumOf,
        Turn.events]
      omega

/-- In every run the reply is completed at most once in each generation. -/
theorem completions_le (run : Run capacity turns session) :
    completions .streaming (counters (turns.flatMap Turn.events)) +
        session.pending ≤
      1 + sumOf (fun turn => turn.step.begins turn.session) turns := by
  induction run with
  | start =>
      have none : completions .streaming (counters []) = 0 :=
        completions_eq_zero fun _ => List.not_mem_nil
      rw [List.flatMap_nil, none]
      exact Nat.le_refl 1
  | @step turns session run step inductionHypothesis =>
      have law := step.completions_le session
      simp only [List.flatMap_append, List.flatMap_singleton, counters_append,
        completions_append, sumOf_append, sumOf, Turn.events]
      omega

end Run

end Streaming

/-! ## Exactly once in each generation -/

/--
In every run, at every boundary, each finalize call that is carried out finds a
reply, counts one completion by the reply's status or one more on a completed
reply, and nothing else; on a completed reply it fires nothing and changes at most
the tag's field.  A call that is asked for, by a step, in a script or by letting a
guarded reply go, is carried out next and on that reply; those asked for are those
counted and those still planned, so at rest all are counted.  No two replies have
the same identity, and each is completed at most once in each generation, which
begins when it is made, cleared or given a handler.  A streamed reply is no
different, and a finalize call on a completed one changes nothing.
-/
theorem completion_accounted :
    (∀ (turns : List Turn) (machine : Machine),
      Run turns machine →
        (∀ before, .work before .finalize ∈ turns →
          ∃ reply below,
            before.hand = reply :: below ∧
              counters (Turn.work before .finalize).events =
                [if reply.completed then
                  .finalizedTwice .buffered
                else
                  .finalized .buffered reply.message.status.code] ∧
              (reply.completed = true →
                firings (Turn.work before .finalize).events = [] ∧
                  ∃ headers,
                    headers.remove .etag =
                        reply.message.headers.remove .etag ∧
                      before.perform .finalize =
                        { before with
                          hand :=
                            { reply with
                              message :=
                                { reply.message with headers := headers } } ::
                              below
                          trace :=
                            before.trace ++
                              (Turn.work before .finalize).events })) ∧
          (∀ turn ∈ turns, ∀ reply, turn.deed.called? = some reply →
            ∃ below later,
              turn.after.hand = reply :: below ∧
                turn.after.tasks = .finalize :: later) ∧
          sumOf Deed.calls (turns.map Turn.deed) =
            completions .buffered (counters (eventsOf turns)) +
              (counters (eventsOf turns)).count (.finalizedTwice .buffered) +
              sumOf Task.calls machine.tasks ∧
          (machine.tasks = [] →
            sumOf Deed.calls (turns.map Turn.deed) =
              completions .buffered (counters (eventsOf turns)) +
                (counters (eventsOf turns)).count
                  (.finalizedTwice .buffered)) ∧
          completions .streaming (counters (eventsOf turns)) = 0 ∧
          (counters (eventsOf turns)).count (.finalizedTwice .streaming) = 0 ∧
          (machine.replies.map Buffered.id ++
            (turns.map Turn.deed).flatMap fun deed =>
              deed.gone.map Buffered.id).Nodup ∧
          ((turns.map Turn.deed).flatMap Deed.completed).length =
            completions .buffered (counters (eventsOf turns)) ∧
          ∀ id,
            ((turns.map Turn.deed).flatMap Deed.completed).count id ≤
              ((turns.map Turn.deed).flatMap Deed.begun).count id) ∧
      (∀ (capacity : Nat)
          (turns : List Streaming.Turn)
          (session : Streaming.Session),
        Streaming.Run capacity turns session →
          (∀ before, ⟨before, .finalize⟩ ∈ turns →
            Streaming.counters before.finalize.trace =
                [if before.reply.completed then
                  .finalizedTwice .streaming
                else
                  .finalized .streaming before.reply.message.status.code] ∧
              (before.reply.completed = true →
                before.finalize.session = before ∧
                  Streaming.firings before.finalize.trace = [])) ∧
            sumOf (fun turn => turn.step.calls) turns =
              completions .streaming
                  (Streaming.counters (turns.flatMap Streaming.Turn.events)) +
                (Streaming.counters
                  (turns.flatMap Streaming.Turn.events)).count
                    (.finalizedTwice .streaming) ∧
            completions .buffered
                (Streaming.counters (turns.flatMap Streaming.Turn.events)) =
              0 ∧
            (Streaming.counters (turns.flatMap Streaming.Turn.events)).count
                (.finalizedTwice .buffered) =
              0 ∧
            completions .streaming
                (Streaming.counters (turns.flatMap Streaming.Turn.events)) ≤
              1 + sumOf (fun turn => turn.step.begins turn.session) turns) := by
  refine ⟨?buffered, ?streaming⟩
  case buffered =>
    intro turns machine run
    obtain ⟨calls, streaming, again⟩ := run.calls_counted
    refine
      ⟨?each, fun _ _ _ => Turn.next_of_called, calls, ?rested, streaming,
        again, run.nodup_ids, length_completed turns, run.count_completed_le⟩
    case each =>
      intro before carriedOut
      obtain ⟨reply, below, hand⟩ := run.exists_hand_of_mem carriedOut
      refine ⟨reply, below, hand, Turn.counters_finalize hand, ?_⟩
      intro completed
      obtain ⟨headers, finalized, others⟩ :=
        Buffered.finalize_of_completed completed
      have events := Turn.events_finalize hand
      rw [finalized] at events
      refine ⟨?_, headers, others, ?_⟩
      · rw [events, firings_append, firings_noted]
        rfl
      · rw [Machine.perform, Machine.finalize_eq hand, events, finalized]
        rfl
    case rested =>
      intro rested
      rw [calls, rested, sumOf, Nat.add_zero]
  case streaming =>
    intro capacity turns session run
    obtain ⟨calls, buffered, again⟩ := run.calls_counted
    refine
      ⟨?_, calls, buffered, again,
        Nat.le_trans (Nat.le_add_right _ _) run.completions_le⟩
    intro before carriedOut
    exact ⟨before.counters_finalize, Streaming.Session.finalize_of_completed⟩

/--
A guarded reply is dropped whose handler clears it and finalizes it twice: three
calls, two completions of two generations, and one call too many.  A streamed reply
that is finalized twice counts both calls.
-/
theorem completion_accounted_cleared_in_handler :
    (∃ turns machine,
      Run turns machine ∧
        machine.tasks = [] ∧
        counters (eventsOf turns) =
          [.finalized .buffered 200, .finalized .buffered 200,
            .finalizedTwice .buffered] ∧
        sumOf Deed.calls (turns.map Turn.deed) = 3 ∧
        completions .buffered (counters (eventsOf turns)) +
            (counters (eventsOf turns)).count (.finalizedTwice .buffered) =
          3 ∧
        ((turns.map Turn.deed).flatMap Deed.completed).count 0 = 2 ∧
        2 ≤ ((turns.map Turn.deed).flatMap Deed.begun).count 0) ∧
      ∃ turns session,
        Streaming.Run 8 turns session ∧
          sumOf (fun turn => turn.step.calls) turns = 2 ∧
          completions .streaming
              (Streaming.counters (turns.flatMap Streaming.Turn.events)) +
            (Streaming.counters (turns.flatMap Streaming.Turn.events)).count
              (.finalizedTwice .streaming) = 2 := by
  constructor
  · have stored := (Run.start.order rfl (.create "a")).work rfl
    have armed :=
      (stored.order rfl
        (.act "a"
          (.ask
            (.setHandler "h"
              [("clear", .clear), ("finalize", .finalize),
                ("finalize", .finalize)])))).work rfl
    have guarded := (armed.order rfl (.act "a" .guard)).work rfl
    have fired := (guarded.order rfl (.act "a" .drop)).work rfl
    have cleared := (fired.work rfl).work rfl
    have again := ((cleared.work rfl).work rfl).work rfl
    have twice := ((again.work rfl).work rfl).work rfl
    have last := (twice.work rfl).work rfl
    obtain ⟨-, -, -, calls, -, -, -, -, generations⟩ :=
      completion_accounted.1 _ _ last
    exact ⟨_, _, last, rfl, rfl, rfl, (calls rfl).symm, rfl, generations 0⟩
  · have once := (show Streaming.Run 8 [] _ from .start).step .finalize
    have twice := once.step .finalize
    obtain ⟨-, calls, -⟩ := completion_accounted.2 8 _ _ twice
    exact ⟨_, _, twice, rfl, calls.symm⟩

end Reply
