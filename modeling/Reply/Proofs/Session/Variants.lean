import Reply.Proofs.Session.Twins

namespace Reply

/-!
# Two variants, one interface

A new buffered reply and a new streamed reply with room enough are asked the same
things one after the other.  Each is answered alike: with the same answer, the same
handlers fired, the same counted but for the variant, and the same to be seen
afterwards.
-/

/-- A counter with its variant's label exchanged for another. -/
def Counter.labelledAs (variant : Variant) : Counter → Counter
  | .finalized _ code => .finalized variant code
  | .finalizedTwice _ => .finalizedTwice variant
  | counter => counter

/--
Two replies were asked the same: they answered the same, fired the same handlers,
counted the same but for the variant, and look the same now.
-/
structure Alike
    (slot : String)
    (operation : Operation)
    (buffered : Outcome)
    (streamed : Streaming.Outcome) : Prop where
  answer : operation.SameAnswer buffered.answer streamed.answer
  fired :
    buffered.trace.filterMap Event.fired? =
      streamed.trace.filterMap Streaming.Event.fired?
  counted :
    (counters buffered.trace).map (Counter.labelledAs .streaming) =
      Streaming.counters streamed.trace
  countedThere :
    (Streaming.counters streamed.trace).map (Counter.labelledAs .buffered) =
      counters buffered.trace
  seen :
    ∃ content,
      buffered.session.slots.get? slot = some content ∧
        content.reply.payload = .null ∧
        content.reply.view buffered.session.flags =
          streamed.session.reply.view streamed.session.flags

/-- The reply in a slot and a streaming session that cannot be told apart. -/
def TwinsAt
    (slot : String)
    (session : Session)
    (streaming : Streaming.Session) :
    Prop :=
  ∃ content,
    session.slots.get? slot = some content ∧
      Twins session content.reply streaming

namespace Twins

variable
    {slot : String}
    {operation : Operation}
    {buffered : Outcome}
    {streamed : Streaming.Outcome}

/-- Outcomes that leave twins are alike if they say and do the same. -/
theorem alike
    {content : Holding}
    (present : buffered.session.slots.get? slot = some content)
    (twins : Twins buffered.session content.reply streamed.session)
    (answer : operation.SameAnswer buffered.answer streamed.answer)
    (fired :
      buffered.trace.filterMap Event.fired? =
        streamed.trace.filterMap Streaming.Event.fired?)
    (counted :
      (counters buffered.trace).map (Counter.labelledAs .streaming) =
        Streaming.counters streamed.trace)
    (countedThere :
      (Streaming.counters streamed.trace).map (Counter.labelledAs .buffered) =
        counters buffered.trace) :
    Alike slot operation buffered streamed ∧
      TwinsAt slot buffered.session streamed.session :=
  ⟨⟨answer, fired, counted, countedThere,
      content, present, twins.payload, twins.view⟩,
    content, present, twins⟩

end Twins

/-- A finalize call counts the same for both variants but for the label. -/
theorem Counter.labelledAs_ofCall
    (variant other : Variant)
    (completed : Bool)
    (status : Status) :
    Counter.labelledAs other (.ofCall variant completed status) =
      .ofCall other completed status := by
  cases completed <;> rfl

theorem filterMap_fired?_fired
    (due : Option Handler)
    (given : Response)
    (alive : Bool) :
    (due.toList.map fun handler =>
        Event.fired handler.serial handler.name given alive).filterMap
          Event.fired? =
      due.toList.map fun handler => (handler.serial, handler.name) := by
  cases due <;> rfl

theorem filterMap_fired?_noted (notes : List Note) :
    (notes.map Event.noted).filterMap Event.fired? = [] := by
  simp [Event.fired?]

/-- Reports neither fire nor count. -/
theorem silent_of_reports
    {reports : List Event}
    (only : ∀ event ∈ reports, event.IsReport) :
    reports.filterMap Event.fired? = [] ∧ counters reports = [] := by
  constructor <;>
    apply List.filterMap_eq_nil_iff.mpr <;>
    intro event member <;>
    obtain ⟨handler, word, answer, rfl⟩ := only event member <;>
    rfl

namespace TwinsAt

variable
    {slot : String}
    {session : Session}
    {streaming : Streaming.Session}

/-- What fires no handler is answered alike and leaves twins. -/
theorem quiet
    (twinsAt : TwinsAt slot session streaming)
    {operation : Operation}
    (quiet : operation.mayFire = false)
    (fits :
      (streaming.perform operation.streamed).answer.isOverflow = false) :
    Alike slot operation
        (session.perform (.act slot (.ask operation.buffered)))
        (streaming.perform operation.streamed) ∧
      TwinsAt slot
        (session.perform (.act slot (.ask operation.buffered))).session
        (streaming.perform operation.streamed).session := by
  obtain ⟨content, present, twins⟩ := twinsAt
  have parallel :=
    (twins.withSlots (session.slots.erase slot)).parallel quiet fits
  rw [Session.perform_ask_quiet present rfl parallel.sequel]
  refine
    Twins.alike ((Registry.get?_put ..).trans (if_pos rfl))
      (parallel.twins.withSlots _) parallel.answer ?_ ?_ ?_
  · rw [filterMap_fired?_noted, parallel.unfired]
  · rw [parallel.uncountedThere]
    exact congrArg _ parallel.uncounted
  · rw [parallel.uncountedThere]
    exact parallel.uncounted.symm

/-- Finalizing is answered alike, counted once, and leaves twins. -/
theorem finalize (twinsAt : TwinsAt slot session streaming) :
    Alike slot .finalize (session.perform (.act slot (.ask .finalize)))
        (streaming.perform .finalize) ∧
      TwinsAt slot
        (session.perform (.act slot (.ask .finalize))).session
        (streaming.perform .finalize).session := by
  obtain ⟨content, present, twins⟩ := twinsAt
  have onlooking :
      ∀ handler ∈ content.reply.finalize.value.2,
        ∀ line ∈ handler.script, line.2.looksOn = true := by
    intro handler due
    rw [Buffered.finalize_value] at due
    split at due
    · contradiction
    · exact twins.attached handler due
  obtain ⟨left, answer, fired⟩ := twins.finalize
  obtain ⟨reports, only, performed⟩ :=
    Session.perform_finalize_onlooking present onlooking
  obtain ⟨unfired, uncounted⟩ := silent_of_reports only
  have counted :
      counters (session.perform (.act slot (.ask .finalize))).trace =
        [.ofCall .buffered content.reply.completed
          content.reply.message.status] := by
    rw [performed, counters_append, counters_append,
      content.reply.counters_finalize, counters_fired, uncounted]
    rfl
  have countedThere :
      Streaming.counters (streaming.perform .finalize).trace =
        [.ofCall .streaming content.reply.completed
          content.reply.message.status] := by
    rw [Streaming.Session.perform, streaming.counters_finalize,
      twins.completed, twins.message.status]
  rw [performed] at counted ⊢
  refine
    Twins.alike ((Registry.get?_put ..).trans (if_pos rfl))
      (left.withSlots _) answer.symm ?_ ?_ ?_
  · rw [List.filterMap_append, List.filterMap_append, filterMap_fired?_noted,
      filterMap_fired?_fired, unfired, List.append_nil]
    exact fired.symm
  · rw [counted, countedThere, List.map_singleton, Counter.labelledAs_ofCall]
  · rw [counted, countedThere, List.map_singleton, Counter.labelledAs_ofCall]

/-- Firing a released handler is answered alike and leaves twins. -/
theorem invokeHandler
    (twinsAt : TwinsAt slot session streaming)
    (name : String) :
    Alike slot (.invokeHandler name)
        (session.perform (.act slot (.ask (.invokeHandler name))))
        (streaming.perform (.invokeHandler name)) ∧
      TwinsAt slot
        (session.perform (.act slot (.ask (.invokeHandler name)))).session
        (streaming.perform (.invokeHandler name)).session := by
  obtain ⟨content, present, twins⟩ := twinsAt
  have kept := Registry.get?_map Handler.streamed session.handlers name
  rw [← twins.handlers] at kept
  cases found : session.handlers.get? name with
  | none =>
      have refused :
          (Step.invokeHandler name).apply (session.emptied slot)
              content.reply =
            .answering (session.emptied slot) content.reply
              (.refused .noHandler) := by
        have missing : (session.emptied slot).handlers.get? name = none :=
          found
        simp only [Step.apply, Session.invokeHandler, missing]
      rw [found, Option.map_none] at kept
      rw [Session.perform_ask_quiet present refused rfl]
      simp only [Streaming.Session.perform, Streaming.Session.invokeHandler,
        kept]
      exact
        Twins.alike ((Registry.get?_put ..).trans (if_pos rfl))
          (twins.withSlots _) rfl rfl rfl rfl
  | some handler =>
      have common := twins.found found
      obtain ⟨erased, released⟩ := twins.taken name
      have emptied :
          Twins { session with handlers := session.handlers.erase name }
            content.reply
            { streaming with handlers := streaming.handlers.erase name } :=
        { twins with
          handlers := erased
          released := released }
      have left := emptied.fire handler []
      obtain ⟨reports, only, performed⟩ :=
        Session.perform_invoke_onlooking present found common
      obtain ⟨unfired, uncounted⟩ := silent_of_reports only
      rw [found, Option.map_some] at kept
      rw [performed]
      simp only [Streaming.Session.perform, Streaming.Session.invokeHandler,
        kept]
      refine
        Twins.alike ((Registry.get?_put ..).trans (if_pos rfl))
          (left.withSlots _) rfl ?_ ?_ ?_
      · exact congrArg (List.cons (handler.serial, handler.name)) unfired
      · exact congrArg (List.map (Counter.labelledAs .streaming)) uncounted
      · exact uncounted.symm

/-- Whatever twins are asked is answered alike and leaves twins. -/
theorem step
    (twinsAt : TwinsAt slot session streaming)
    (operation : Operation)
    (fits :
      (streaming.perform operation.streamed).answer.isOverflow = false) :
    Alike slot operation
        (session.perform (.act slot (.ask operation.buffered)))
        (streaming.perform operation.streamed) ∧
      TwinsAt slot
        (session.perform (.act slot (.ask operation.buffered))).session
        (streaming.perform operation.streamed).session := by
  cases fires : operation.mayFire with
  | false => exact twinsAt.quiet fires fits
  | true =>
      cases operation with
      | finalize => exact twinsAt.finalize
      | invokeHandler name => exact twinsAt.invokeHandler name
      | _ => contradiction

/-- Whatever twins are asked one after the other is answered alike. -/
theorem run
    (operations : List Operation)
    {session : Session}
    {streaming : Streaming.Session}
    (twinsAt : TwinsAt slot session streaming)
    (fits :
      ∀ outcome ∈ streaming.performAll (operations.map Operation.streamed),
        outcome.answer.isOverflow = false) :
    List.Forall₂
      (fun (asked : Operation × Outcome) answered =>
        Alike slot asked.1 asked.2 answered)
      (operations.zip
        (session.performAll
          (operations.map fun operation =>
            .act slot (.ask operation.buffered))))
      (streaming.performAll (operations.map Operation.streamed)) := by
  induction operations generalizing session streaming with
  | nil => exact .nil
  | cons operation rest inductionHypothesis =>
      obtain ⟨first, later⟩ := List.forall_mem_cons.mp fits
      obtain ⟨alike, left⟩ := twinsAt.step operation first
      exact .cons alike (inductionHypothesis left later)

end TwinsAt

/-- New replies of either variant are twins. -/
theorem TwinsAt.fresh
    (slot : String)
    (capacity : Nat) :
    TwinsAt slot (Session.initial.perform (.create slot)).session
      (.ofCapacity capacity) := by
  have made :
      (Session.initial.perform (.create slot)).session =
        { Session.initial.grown with
          slots := Session.initial.slots.put slot ⟨.blank 0, false⟩ } := by
    simp only [Session.perform, Command.start]
    rw [Machine.run_of_shelve rfl rfl rfl, Machine.run_of_rested rfl]
    rfl
  rw [made]
  exact
    ⟨⟨.blank 0, false⟩, (Registry.get?_put ..).trans (if_pos rfl),
      ⟨⟨rfl, rfl, rfl, rfl⟩, rfl, rfl, rfl, rfl, rfl, rfl, rfl, rfl,
        fun _ member => absurd member (Option.not_mem_none _),
        fun _ member => absurd member List.not_mem_nil⟩⟩

/-! ## Whole runs -/

/-- There is one outcome for each command. -/
theorem Session.length_performAll
    (session : Session)
    (commands : List Command) :
    (session.performAll commands).length = commands.length := by
  induction commands generalizing session with
  | nil => rfl
  | cons command rest inductionHypothesis =>
      exact congrArg Nat.succ (inductionHypothesis _)

/--
Ask a new buffered reply and a new streamed reply the same things one after the
other, with room for all that is written: each thing is answered alike, fires the
same handlers, counts the same but for the variant and leaves replies that look the
same, and the buffered one without content.
-/
theorem variants_alike
    (slot : String)
    (capacity : Nat)
    (operations : List Operation)
    (fits :
      ∀ outcome ∈
          (Streaming.Session.ofCapacity capacity).performAll
            (operations.map Operation.streamed),
        outcome.answer.isOverflow = false) :
    ((Session.initial.perform (.create slot)).session.performAll
          (operations.map fun operation =>
            .act slot (.ask operation.buffered))).length =
        operations.length ∧
      List.Forall₂
        (fun (asked : Operation × Outcome) answered =>
          Alike slot asked.1 asked.2 answered)
        (operations.zip
          ((Session.initial.perform (.create slot)).session.performAll
            (operations.map fun operation =>
              .act slot (.ask operation.buffered))))
        ((Streaming.Session.ofCapacity capacity).performAll
          (operations.map Operation.streamed)) := by
  constructor
  · rw [Session.length_performAll, List.length_map]
  · exact (TwinsAt.fresh slot capacity).run operations fits

/--
A handler takes one flag down and puts another up when a reply with status 404 is
finalized; cleared and finalized again, the reply has no handler left to fire.
-/
theorem variants_alike_cleared_and_finalized :
    ∃ operations : List Operation,
      operations.map Operation.streamed =
          [.setProbe "up", .setHandler "h" [("up", false), ("done", true)],
            .write (utf8 "é"), .setStatus 404, .frame, .finalize,
            .readAlive, .clear, .write (utf8 "ok"), .finalize] ∧
        (∀ outcome ∈
            (Streaming.Session.ofCapacity 2).performAll
              (operations.map Operation.streamed),
          outcome.answer.isOverflow = false) ∧
        ((Streaming.Session.ofCapacity 2).performAll
            (operations.map Operation.streamed)).flatMap
          (fun outcome => Streaming.counters outcome.trace) =
          [.finalized .streaming 404, .finalized .streaming 200] ∧
        List.Forall₂
          (fun (asked : Operation × Outcome) answered =>
            Alike "a" asked.1 asked.2 answered)
          (operations.zip
            ((Session.initial.perform (.create "a")).session.performAll
              (operations.map fun operation =>
                .act "a" (.ask operation.buffered))))
          ((Streaming.Session.ofCapacity 2).performAll
            (operations.map Operation.streamed)) := by
  have common :
      Common
        [("status", .readStatus), ("set_flag", .setFlag "up" false),
          ("set_flag", .setFlag "done" true)] := by
    decide
  obtain ⟨operations, asked⟩ :
      ∃ operations : List Operation,
        operations.map Operation.streamed =
          [.setProbe "up", .setHandler "h" [("up", false), ("done", true)],
            .write (utf8 "é"), .setStatus 404, .frame, .finalize,
            .readAlive, .clear, .write (utf8 "ok"), .finalize] :=
    ⟨[.setProbe "up", .setHandler "h" _ common, .append "é",
        .setStatus 404, .frame, .finalize, .readAlive, .clear, .append "ok",
        .finalize],
      rfl⟩
  have fits :
      ∀ outcome ∈
          (Streaming.Session.ofCapacity 2).performAll
            (operations.map Operation.streamed),
        outcome.answer.isOverflow = false := by
    rw [asked]
    decide +kernel
  refine
    ⟨operations, asked, fits, ?_, (variants_alike "a" 2 operations fits).2⟩
  rw [asked]
  decide +kernel

end Reply
