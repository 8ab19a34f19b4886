import Reply.Proofs.Session.Generations

namespace Reply

/-!
# Finalizing twice is put on record

A finalize call that finds the reply completed is logged and counted in one turn, and
nothing else logs an error or says that a reply was finalized twice.  So in every run
the log and the counter tell the same number of such calls.  The log tells them as
errors of a buffered reply, and of a streamed one at debug level only, where no error
is logged at all.
-/

/-! ## Records -/

/-- Whether a log record is an error. -/
def isError (record : Level × String) : Bool :=
  record.1 = .error

/-- Whether a log record says a text. -/
def hasText (text : String) (record : Level × String) : Bool :=
  record.2 = text

/-- A list put together of single values and nothing repeats the value. -/
theorem flatMap_eq_replicate
    {α β : Type}
    {image : α → List β}
    {chosen : α → Bool}
    {value : β}
    (each :
      ∀ item, image item = if chosen item then [value] else [])
    (items : List α) :
    items.flatMap image = List.replicate (items.countP chosen) value := by
  induction items with
  | nil => rfl
  | cons item rest inductionHypothesis =>
      rw [List.flatMap_cons, each, inductionHypothesis]
      cases selected : chosen item with
      | true =>
          rw [List.countP_cons_of_pos selected, List.replicate_succ]
          rfl
      | false =>
          rw [List.countP_cons_of_neg (Bool.eq_false_iff.mp selected)]
          rfl

/-- Ones and zeros sum up to the number of ones. -/
theorem sumOf_eq_countP
    {α : Type}
    {size : α → Nat}
    {chosen : α → Bool}
    (each : ∀ item, size item = if chosen item then 1 else 0)
    (items : List α) :
    sumOf size items = items.countP chosen := by
  induction items with
  | nil => rfl
  | cons item rest inductionHypothesis =>
      rw [sumOf, each, inductionHypothesis, List.countP_cons, Nat.add_comm]

/-! ## Buffered replies -/

/-- The log record that an event is, if it is one. -/
def Event.record? (event : Event) : Option (Level × String) :=
  event.note?.bind Note.record?

/-- The log records among events, in order. -/
def records (trace : List Event) : List (Level × String) :=
  trace.filterMap Event.record?

theorem records_append (first second : List Event) :
    records (first ++ second) = records first ++ records second :=
  List.filterMap_append

/-- What is on record among events is what they note as logged. -/
theorem noted_of_mem_records
    {trace : List Event}
    {level : Level}
    {text : String}
    (member : (level, text) ∈ records trace) :
    .noted (.logged level text) ∈ trace := by
  obtain ⟨event, present, logs⟩ := List.mem_filterMap.mp member
  cases event with
  | noted note =>
      cases note with
      | logged =>
          obtain ⟨rfl, rfl⟩ := Prod.mk.inj (Option.some.inj logs)
          exact present
      | counted => contradiction
  | fired | reported => contradiction

/-- Whether a turn is a finalize call that finds the reply completed. -/
def Turn.findsCompleted : Turn → Bool
  | .work ⟨_, reply :: _, _, _⟩ .finalize => reply.completed
  | _ => false

theorem Turn.findsCompleted_finalize
    {machine : Machine}
    {reply : Response}
    {below : List Response}
    (hand : machine.hand = reply :: below) :
    (Turn.work machine .finalize).findsCompleted = reply.completed := by
  rcases machine with ⟨session, held, tasks, trace⟩
  obtain rfl := hand
  rfl

theorem Turn.findsCompleted_of_other
    {turn : Turn}
    (other : ∀ before, turn ≠ .work before .finalize) :
    turn.findsCompleted = false := by
  unfold findsCompleted
  split
  · exact absurd rfl (other _)
  · rfl

/-- Firing the handler that is due logs nothing. -/
theorem records_fired
    (due : Option Handler)
    (given : Response)
    (alive : Bool) :
    records
        (due.toList.map fun handler =>
          .fired handler.serial handler.name given alive) =
      [] := by
  cases due <;> rfl

/-- A finalize call logs an error if and only if the reply is completed. -/
theorem Buffered.errors_finalize (reply : Response) :
    (records (reply.finalize.notes.map Event.noted)).filter isError =
      if reply.completed then
        [(.error, Variant.buffered.twiceText)]
      else
        [] := by
  have completed := (Kept.tagged reply).completed
  unfold finalize
  dsimp only
  rw [completed]
  cases reply.completed with
  | true => rfl
  | false => cases reply.tagged.handler <;> rfl

/-- A turn logs an error if and only if it is a call on a completed reply. -/
theorem Turn.errors_events (turn : Turn) :
    (records turn.events).filter isError =
      if turn.findsCompleted then
        [(.error, Variant.buffered.twiceText)]
      else
        [] := by
  by_cases called : ∃ before, turn = .work before .finalize
  · obtain ⟨before, rfl⟩ := called
    cases hand : before.hand with
    | nil =>
        rcases before with ⟨session, held, tasks, trace⟩
        obtain rfl := hand
        rw [events_finalize_nil rfl]
        rfl
    | cons reply below =>
        rw [events_finalize hand, records_append, records_fired,
          List.append_nil, reply.errors_finalize,
          findsCompleted_finalize hand]
  · have other : ∀ before, turn ≠ .work before .finalize :=
      fun before same => called ⟨before, same⟩
    rw [findsCompleted_of_other other]
    apply List.filter_eq_nil_iff.mpr
    rintro ⟨level, text⟩ member error
    exact
      notes_of_other other _ (noted_of_mem_records member)
        (Or.inl (of_decide_eq_true error))

/-- A turn counts a second call if and only if it is one on a completed reply. -/
theorem Turn.count_twice_events (turn : Turn) :
    (counters turn.events).count (.finalizedTwice .buffered) =
      if turn.findsCompleted then 1 else 0 := by
  by_cases called : ∃ before, turn = .work before .finalize
  · obtain ⟨before, rfl⟩ := called
    cases hand : before.hand with
    | nil =>
        rcases before with ⟨session, held, tasks, trace⟩
        obtain rfl := hand
        rw [events_finalize_nil rfl]
        rfl
    | cons reply below =>
        rw [counters_finalize hand, findsCompleted_finalize hand]
        exact (completions_ofCall ..).2
  · have other : ∀ before, turn ≠ .work before .finalize :=
      fun before same => called ⟨before, same⟩
    rw [findsCompleted_of_other other]
    exact (completions_of_no_call .buffered (no_call_of_other other)).2

/-- Turns log one error for each of them that is a call on a completed reply. -/
theorem errors_eventsOf (turns : List Turn) :
    (records (eventsOf turns)).filter isError =
      List.replicate (turns.countP Turn.findsCompleted)
        (.error, Variant.buffered.twiceText) := by
  rw [← flatMap_eq_replicate Turn.errors_events, records, eventsOf,
    List.filterMap_flatMap, List.filter_flatMap]
  rfl

/-- Turns count each of them that is a call on a completed reply. -/
theorem count_twice_eventsOf (turns : List Turn) :
    (counters (eventsOf turns)).count (.finalizedTwice .buffered) =
      turns.countP Turn.findsCompleted := by
  rw [← sumOf_eq_countP Turn.count_twice_events, counters, eventsOf,
    List.filterMap_flatMap, count_flatMap_eq_sumOf]
  rfl

/-! ## Streamed replies -/

namespace Streaming

/-- The log record that an event is, if it is one. -/
def Event.record? (event : Event) : Option (Level × String) :=
  event.note?.bind Note.record?

/-- The log records among events, in order. -/
def records (trace : List Event) : List (Level × String) :=
  trace.filterMap Event.record?

/-- What is on record among events is what they note as logged. -/
theorem noted_of_mem_records
    {trace : List Event}
    {level : Level}
    {text : String}
    (member : (level, text) ∈ records trace) :
    .noted (.logged level text) ∈ trace := by
  obtain ⟨event, present, logs⟩ := List.mem_filterMap.mp member
  cases event with
  | noted note =>
      cases note with
      | logged =>
          obtain ⟨rfl, rfl⟩ := Prod.mk.inj (Option.some.inj logs)
          exact present
      | counted => contradiction
  | fired => contradiction

/-- Whether a turn is a finalize call that finds the reply completed. -/
def Turn.findsCompleted : Turn → Bool
  | ⟨session, .finalize⟩ => session.reply.completed
  | _ => false

theorem Turn.findsCompleted_of_other
    {turn : Turn}
    (other : turn.step ≠ .finalize) :
    turn.findsCompleted = false := by
  unfold findsCompleted
  split
  · exact absurd rfl other
  · rfl

/-- A finalize call logs no error; on a completed reply it logs what it found. -/
theorem Session.records_finalize (session : Session) :
    (records session.finalize.trace).filter isError = [] ∧
      (records session.finalize.trace).filter
          (hasText Variant.streaming.twiceText) =
        if session.reply.completed then
          [(.debug, Variant.streaming.twiceText)]
        else
          [] := by
  simp only [finalize, Streamed.finalize]
  cases session.reply.completed with
  | true => exact ⟨rfl, rfl⟩
  | false => cases session.reply.handler <;> exact ⟨rfl, rfl⟩

/-- A turn logs no error; only a call on a completed reply logs what it found. -/
theorem Turn.records_events (turn : Turn) :
    (records turn.events).filter isError = [] ∧
      (records turn.events).filter
          (hasText Variant.streaming.twiceText) =
        if turn.findsCompleted then
          [(.debug, Variant.streaming.twiceText)]
        else
          [] := by
  rcases turn with ⟨session, step⟩
  by_cases called : step = .finalize
  · subst called
    exact session.records_finalize
  · have none := Step.notes_of_other session called
    rw [findsCompleted_of_other called]
    constructor <;> apply List.filter_eq_nil_iff.mpr
    · rintro ⟨level, text⟩ member error
      exact
        none _ (noted_of_mem_records member)
          (Or.inl (of_decide_eq_true error))
    · rintro ⟨level, text⟩ member same
      exact
        none _ (noted_of_mem_records member)
          (Or.inr (Or.inr (of_decide_eq_true same)))

/-- A turn counts a second call if and only if it is one on a completed reply. -/
theorem Turn.count_twice_events (turn : Turn) :
    (counters turn.events).count (.finalizedTwice .streaming) =
      if turn.findsCompleted then 1 else 0 := by
  rcases turn with ⟨session, step⟩
  by_cases called : step = .finalize
  · subst called
    rw [events, Session.perform, session.counters_finalize]
    exact (completions_ofCall ..).2
  · rw [findsCompleted_of_other called]
    exact
      (completions_of_no_call .streaming
        (Step.no_call_of_other session called)).2

/-- Turns log no error. -/
theorem errors_events (turns : List Turn) :
    (records (turns.flatMap Turn.events)).filter isError = [] := by
  rw [records, List.filterMap_flatMap, List.filter_flatMap,
    List.flatMap_eq_nil_iff]
  exact fun turn _ => turn.records_events.1

/-- Turns log each of them that is a call on a completed reply, at debug level. -/
theorem twice_events (turns : List Turn) :
    (records (turns.flatMap Turn.events)).filter
        (hasText Variant.streaming.twiceText) =
      List.replicate (turns.countP Turn.findsCompleted)
        (.debug, Variant.streaming.twiceText) := by
  rw [← flatMap_eq_replicate fun turn => turn.records_events.2, records,
    List.filterMap_flatMap, List.filter_flatMap]
  rfl

/-- Turns count each of them that is a call on a completed reply. -/
theorem count_twice_events (turns : List Turn) :
    (counters (turns.flatMap Turn.events)).count (.finalizedTwice .streaming) =
      turns.countP Turn.findsCompleted := by
  rw [← sumOf_eq_countP Turn.count_twice_events, counters,
    List.filterMap_flatMap, count_flatMap_eq_sumOf]
  rfl

/-- As many errors as calls on completed replies are logged if there are none. -/
theorem length_errors_eq_iff (turns : List Turn) :
    ((records (turns.flatMap Turn.events)).filter isError).length =
        turns.countP Turn.findsCompleted ↔
      ∀ turn ∈ turns, turn.findsCompleted = false := by
  rw [errors_events, List.length_nil, eq_comm, List.countP_eq_zero]
  simp only [Bool.not_eq_true]

end Streaming

/-! ## The log and the counter -/

/--
In every run with buffered replies, each finalize call that is carried out finds a
reply, and the calls that find it completed are those that log an error and those that
increment the counter: as many as there are, so many errors say that a reply was
finalized twice, no other error is logged, and so often the counter is incremented.
In every run with a streamed reply the calls that find it completed are on record and
counted too, but at debug level: there are as many errors as such calls if and only if
there is no such call.
-/
theorem second_call_recorded
    {turns : List Turn}
    {machine : Machine}
    (run : Run turns machine) :
    ((∀ before, .work before .finalize ∈ turns →
        ∃ reply below,
          before.hand = reply :: below ∧
            (Turn.work before .finalize).findsCompleted = reply.completed ∧
            (reply.completed = true →
              (Turn.work before .finalize).events =
                [.noted (.logged .error "Response was finalized twice"),
                  .noted (.counted (.finalizedTwice .buffered))])) ∧
        (records (eventsOf turns)).filter isError =
          List.replicate (turns.countP Turn.findsCompleted)
            (.error, "Response was finalized twice") ∧
        (counters (eventsOf turns)).count (.finalizedTwice .buffered) =
          turns.countP Turn.findsCompleted) ∧
      ∀ (capacity : Nat)
          (streamed : List Streaming.Turn)
          (session : Streaming.Session),
        Streaming.Run capacity streamed session →
          (Streaming.records
              (streamed.flatMap Streaming.Turn.events)).filter
              (hasText "Streaming response was finalized twice") =
            List.replicate (streamed.countP Streaming.Turn.findsCompleted)
              (.debug, "Streaming response was finalized twice") ∧
          (Streaming.counters
              (streamed.flatMap Streaming.Turn.events)).count
              (.finalizedTwice .streaming) =
            streamed.countP Streaming.Turn.findsCompleted ∧
          (((Streaming.records
                (streamed.flatMap Streaming.Turn.events)).filter
                isError).length =
              streamed.countP Streaming.Turn.findsCompleted ↔
            ∀ turn ∈ streamed, turn.findsCompleted = false) := by
  refine ⟨⟨?each, errors_eventsOf turns, count_twice_eventsOf turns⟩, ?streaming⟩
  case each =>
    intro before carriedOut
    obtain ⟨reply, below, hand⟩ := run.exists_hand_of_mem carriedOut
    refine ⟨reply, below, hand, Turn.findsCompleted_finalize hand, ?_⟩
    intro completed
    have again : reply.tagged.completed = true :=
      (Buffered.Kept.tagged reply).completed.trans completed
    rw [Turn.events_finalize hand]
    simp only [Buffered.finalize, again]
    rfl
  case streaming =>
    intro capacity streamed session _
    exact
      ⟨Streaming.twice_events streamed, Streaming.count_twice_events streamed,
        Streaming.length_errors_eq_iff streamed⟩

/--
A guarded reply is dropped whose handler finalizes it again: two calls, one of which is
logged as an error and counted as a second one.  A streamed reply that is finalized
twice has its second call on record at debug level.
-/
theorem second_call_recorded_in_handler :
    ∃ turns machine streamed session,
      (Run turns machine ∧
        machine.tasks = [] ∧
        sumOf Deed.calls (turns.map Turn.deed) = 2 ∧
        (records (eventsOf turns)).filter isError =
          [(.error, "Response was finalized twice")] ∧
        (counters (eventsOf turns)).count (.finalizedTwice .buffered) = 1) ∧
      Streaming.Run 8 streamed session ∧
      (Streaming.records (streamed.flatMap Streaming.Turn.events)).filter
          (hasText "Streaming response was finalized twice") =
        [(.debug, "Streaming response was finalized twice")] ∧
      (Streaming.counters (streamed.flatMap Streaming.Turn.events)).count
          (.finalizedTwice .streaming) =
        1 := by
  have stored := (Run.start.order rfl (.create "a")).work rfl
  have armed :=
    (stored.order rfl
      (.act "a" (.ask (.setHandler "h" [("finalize", .finalize)])))).work rfl
  have guarded := (armed.order rfl (.act "a" .guard)).work rfl
  have fired := (guarded.order rfl (.act "a" .drop)).work rfl
  have twice := (fired.work rfl).work rfl
  have last := ((twice.work rfl).work rfl).work rfl
  have once := (show Streaming.Run 8 [] _ from .start).step .finalize
  have again := once.step .finalize
  obtain ⟨⟨-, errors, counted⟩, streaming⟩ := second_call_recorded last
  obtain ⟨logged, countedToo, -⟩ := streaming 8 _ _ again
  exact
    ⟨_, _, _, _, ⟨last, rfl, rfl, errors, counted⟩, again, logged, countedToo⟩

/-- A streamed reply that is finalized twice counts the second call, but logs no error. -/
theorem second_call_not_always_error :
    ¬∀ (capacity : Nat)
        (turns : List Streaming.Turn)
        (session : Streaming.Session),
      Streaming.Run capacity turns session →
        ((Streaming.records
            (turns.flatMap Streaming.Turn.events)).filter isError).length =
          (Streaming.counters
            (turns.flatMap Streaming.Turn.events)).count
              (.finalizedTwice .streaming) := by
  intro claimed
  have once := (show Streaming.Run 8 [] _ from .start).step .finalize
  have twice := once.step .finalize
  exact absurd (claimed 8 _ _ twice) (by decide)

end Reply
