import Reply.Proofs.Session.Asking
import Reply.Proofs.Session.Finalizing

namespace Reply

/-!
# Conditional replies from end to end

A client is given a tag for one content and asks for another with it.  Whether it
is told that nothing was modified depends on the two digests alone, and once it is
told so nothing on the way to the transport takes that back.
-/

/-! ## Conditional replies -/

/-- A 200 reply with some content, for a client that holds a tag. -/
structure Buffered.Conditional
    {η : Type}
    (tag : String)
    (content : Payload)
    (reply : Buffered η) :
    Prop where
  status : reply.message.status = .ok
  payload : reply.payload = content
  expected : reply.expected = some tag

namespace Buffered.Conditional

variable
    {η : Type}
    {tag : String}
    {content : Payload}
    {reply : Buffered η}

/-- Rendering the content beforehand leaves a reply conditional. -/
theorem render (conditional : reply.Conditional tag content) :
    reply.render.Conditional tag content := by
  unfold Buffered.render
  split
  · exact ⟨conditional.status, conditional.payload, conditional.expected⟩
  · exact conditional

/-- Framing the body beforehand leaves a reply conditional. -/
theorem frame (conditional : reply.Conditional tag content) :
    reply.frame.Conditional tag content :=
  ⟨conditional.status, conditional.payload, conditional.expected⟩

theorem tag?_eq
    (conditional : reply.Conditional tag content)
    (present : content.isEmpty = false) :
    reply.tag? = some (Tag.ofDigest content.digest) := by
  rw [tag?_of_ok conditional.status (conditional.payload ▸ present),
    conditional.payload]

/-- The tag that the client holds is the reply's if the low halves agree. -/
theorem expected_eq_iff
    {held : Payload}
    (conditional : reply.Conditional (Tag.ofDigest held.digest) content) :
    reply.expected = some (Tag.ofDigest content.digest) ↔
      held.digest.toUInt32 = content.digest.toUInt32 := by
  rw [conditional.expected, Option.some.injEq, Tag.ofDigest_eq_iff]

end Buffered.Conditional

/-! ## On the way to the transport -/

/-- A leg that only brings a reply on: it relocates or finalizes it. -/
def Leg.BringsOn (leg : Leg) : Prop :=
  leg.asks = false ∨ leg = .ask .finalize

namespace Session

variable
    {session : Session}
    {slot tag : String}
    {content : Holding}

/-- A leg that brings a 304 reply on leaves it one, and counts it no more. -/
theorem notModified_leg
    (present : session.slots.get? slot = some content)
    (settled : content.reply.Settled)
    (answered : content.reply.NotModified tag)
    {leg : Leg}
    (brings : leg.BringsOn)
    (bare : leg = .ask .finalize → content.reply.handler = none)
    (other : slot ∉ leg.targets)
    (free : ∀ target ∈ leg.targets, session.slots.get? target = none) :
    ∃ reply guarded,
      (session.perform (.act slot leg.action)).session.slots.get?
          (leg.arrival slot) = some ⟨reply, guarded⟩ ∧
        reply.NotModified tag ∧
        reply.handler = content.reply.handler ∧
        reply.Settled ∧
        (∀ name, name ≠ slot → name ∉ leg.targets →
          (session.perform (.act slot leg.action)).session.slots.get? name =
            session.slots.get? name) ∧
        (counters (session.perform (.act slot leg.action)).trace).count
          .notModified = 0 := by
  rcases brings with relocates | rfl
  · obtain ⟨slots, extra, guarded, moved, logs, arrived, kept, -⟩ :=
      perform_relocation present settled relocates other free
    rw [counters_of_isLog logs, moved]
    exact
      ⟨content.reply, guarded, arrived, answered, rfl, settled, kept, rfl⟩
  · have nothing := bare rfl
    have left : content.reply.finalize.value.1.handler = none :=
      settled.finalize
    simp only [Leg.action, Leg.arrival, perform_finalize_bare present nothing,
      content.reply.counters_finalize]
    refine
      ⟨content.reply.finalize.value.1, content.guarded, ?_, answered.finalize,
        left.trans nothing.symm, Buffered.settled_of_none left, ?_,
        List.count_singleton.trans
          (if_neg (by simp [Counter.ofCall_ne_notModified]))⟩
    · rw [Registry.get?_put, if_pos rfl]
    · intro name notSlot notTarget
      exact session.slots.get?_put_erase notSlot notSlot _

/-- A 304 reply stays one on its way, and is counted no more. -/
theorem notModified_journey
    (legs : List Leg)
    {session : Session}
    {slot : String}
    {content : Holding}
    (present : session.slots.get? slot = some content)
    (settled : content.reply.Settled)
    (answered : content.reply.NotModified tag)
    (brings : ∀ leg ∈ legs, leg.BringsOn)
    (bare : .ask .finalize ∈ legs → content.reply.handler = none)
    (distinct : (slot :: legs.flatMap Leg.targets).Nodup)
    (free :
      ∀ target ∈ legs.flatMap Leg.targets,
        session.slots.get? target = none) :
    (∃ reply guarded,
      (session.afterAll (journey slot legs)).slots.get?
          (destination slot legs) = some ⟨reply, guarded⟩ ∧
        reply.NotModified tag) ∧
      (counters
          ((session.performAll (journey slot legs)).flatMap
            Outcome.trace)).count .notModified = 0 := by
  induction legs generalizing session slot content with
  | nil => exact ⟨⟨content.reply, content.guarded, present, answered⟩, rfl⟩
  | cons leg rest inductionHypothesis =>
      rw [List.flatMap_cons] at distinct free
      obtain ⟨away, apart⟩ := List.nodup_cons.mp distinct
      obtain ⟨first, later⟩ := List.forall_mem_cons.mp brings
      obtain ⟨reply, guarded, arrived, still, handler, stays, kept, counted⟩ :=
        notModified_leg present settled answered first
          (fun same => bare (same ▸ List.mem_cons_self))
          (fun member => away (List.mem_append_left _ member))
          (fun target member => free target (List.mem_append_left _ member))
      have restDistinct :
          (leg.arrival slot :: rest.flatMap Leg.targets).Nodup := by
        cases leg with
        | take target | move target => exact apart
        | ask | guard | unguard => exact distinct
      have restFree :
          ∀ target ∈ rest.flatMap Leg.targets,
            (session.perform (.act slot leg.action)).session.slots.get?
              target = none := by
        intro target member
        rw [kept target]
        · exact free target (List.mem_append_right _ member)
        · intro same
          exact away (List.mem_append_right _ (same ▸ member))
        · intro inLeg
          exact (List.nodup_append.mp apart).2.2 target inLeg target member rfl
      obtain ⟨last, nothing⟩ :=
        inductionHypothesis arrived stays still later
          (fun member =>
            handler.trans (bare (List.mem_cons_of_mem _ member)))
          restDistinct restFree
      refine ⟨last, ?_⟩
      rw [journey, performAll, List.flatMap_cons, counters_append,
        List.count_append, counted, nothing]

/-- Handing a plain reply off answers with the message that is sent. -/
theorem answer_deliver
    (present : session.slots.get? slot = some content)
    (plain : content.guarded = false) :
    (session.perform (.act slot .deliver)).answer =
      .message content.reply.deliver.value := by
  simp only [perform, Command.start, present, Action.start, plain,
    Bool.false_eq_true, if_false]

/-- A conditional reply whose tag is held is a 304 reply at the journey's end. -/
theorem notModified_conditional
    (present : session.slots.get? slot = some content)
    (settled : content.reply.Settled)
    (current : content.reply.tag? = some tag)
    (held : content.reply.expected = some tag)
    {legs : List Leg}
    (brings : ∀ leg ∈ legs, leg.BringsOn)
    (bare : .ask .finalize ∈ legs → content.reply.handler = none)
    (distinct : (slot :: legs.flatMap Leg.targets).Nodup)
    (free :
      ∀ target ∈ legs.flatMap Leg.targets,
        session.slots.get? target = none) :
    (∃ reply guarded,
      (session.afterAll (journey slot (.ask .revalidate :: legs))).slots.get?
          (destination slot legs) = some ⟨reply, guarded⟩ ∧
        reply.NotModified tag) ∧
      (counters
          ((session.performAll
            (journey slot (.ask .revalidate :: legs))).flatMap
              Outcome.trace)).count .notModified = 1 := by
  have revalidated :=
    perform_ask_content present (show Step.revalidate.isContent = true from rfl)
  have kept := Buffered.Kept.revalidate content.reply
  have arrived :
      (session.perform (.act slot (.ask .revalidate))).session.slots.get? slot =
        some ⟨content.reply.revalidate.value, content.guarded⟩ := by
    rw [revalidated]
    exact (Registry.get?_put ..).trans (if_pos rfl)
  have counted :
      (counters (session.perform (.act slot (.ask .revalidate))).trace).count
        .notModified = 1 := by
    rw [revalidated]
    simp only [Step.apply, Effect.noting,
      Buffered.revalidate_of_held current held]
    rfl
  have stillFree :
      ∀ target ∈ legs.flatMap Leg.targets,
        (session.perform (.act slot (.ask .revalidate))).session.slots.get?
          target = none := by
    intro target member
    have away : target ≠ slot := by
      intro same
      exact (List.nodup_cons.mp distinct).1 (same ▸ member)
    rw [revalidated]
    exact (session.slots.get?_put_erase away away _).trans (free target member)
  obtain ⟨last, nothing⟩ :=
    notModified_journey legs arrived
      (settled.congr kept.completed kept.handler)
      (Buffered.notModified_revalidate current held) brings
      (fun member => kept.handler.trans (bare member)) distinct stillFree
  refine ⟨last, ?_⟩
  simp only [journey, Leg.action, Leg.arrival, performAll, List.flatMap_cons,
    counters_append, List.count_append]
  rw [counted, nothing]

end Session

/--
Take two contents, and the tag that a 200 reply with the first one gets, from
revalidating and from finalizing alike.  A client that asks with it for the second
is told that nothing was modified if and only if the two digests agree in their
low halves, whether or not the reply was rendered and framed before.  Then the
reply has lost content, body and the fields about them, names that tag, and is
counted once; so it stays on any journey through fresh slots and guards and when
it is finalized without a handler, and so it is sent.  Otherwise only its own tag
is put in.  Revalidating again changes and notes nothing.
-/
theorem revalidation_round_trip
    {held current : Payload}
    (heldContent : held.isEmpty = false)
    (currentContent : current.isEmpty = false) :
    ∃ tag : String,
      (∀ {η : Type} (reply : Buffered η),
        reply.message.status = .ok →
        reply.payload = held →
        ∀ headers ∈
            [reply.revalidate.value.message.headers,
              reply.finalize.value.1.message.headers],
          headers.values .etag = [⟨utf8 tag⟩] ∧
            headers.text? "etag" = some tag) ∧
      (∀ {η : Type} (reply : Buffered η),
        reply.Conditional tag current →
          reply.render.Conditional tag current ∧
          reply.frame.Conditional tag current ∧
          (reply.revalidate.value.message.status = .notModified ↔
            held.digest.toUInt32 = current.digest.toUInt32) ∧
          (held.digest.toUInt32 = current.digest.toUInt32 →
            reply.revalidate.value.NotModified tag ∧
              reply.revalidate.notes.filterMap Note.counter? =
                [.notModified]) ∧
          (held.digest.toUInt32 ≠ current.digest.toUInt32 →
            reply.revalidate =
              .silent
                { reply with
                  message :=
                    { reply.message with
                      headers :=
                        reply.message.headers.set .etag
                          ⟨utf8 (Tag.ofDigest current.digest)⟩ } }) ∧
          reply.revalidate.value.revalidate =
            .silent reply.revalidate.value) ∧
      (∀ (turns : List Turn) (machine : Machine),
        Run turns machine →
        machine.tasks = [] →
        ∀ (slot : String) (content : Holding),
          machine.session.slots.get? slot = some content →
          content.reply.Conditional tag current →
          held.digest.toUInt32 = current.digest.toUInt32 →
          ∀ legs : List Leg,
            (∀ leg ∈ legs, leg.BringsOn) →
            (.ask .finalize ∈ legs → content.reply.handler = none) →
            (slot :: legs.flatMap Leg.targets).Nodup →
            (∀ target ∈ legs.flatMap Leg.targets,
              machine.session.slots.get? target = none) →
            (counters
                ((machine.session.performAll
                  (journey slot (.ask .revalidate :: legs))).flatMap
                    Outcome.trace)).count .notModified = 1 ∧
              ∃ reply guarded,
                (machine.session.afterAll
                    (journey slot (.ask .revalidate :: legs))).slots.get?
                    (destination slot legs) = some ⟨reply, guarded⟩ ∧
                  reply.NotModified tag ∧
                  (guarded = false →
                    ∃ sent,
                      ((machine.session.afterAll
                          (journey slot (.ask .revalidate :: legs))).perform
                            (.act (destination slot legs) .deliver)).answer =
                          .message sent ∧
                        sent.status = .notModified ∧
                        sent.headers.values .etag = [⟨utf8 tag⟩] ∧
                        sent.body = "" ∧
                        sent.headers.get? .contentLength = none)) := by
  refine ⟨Tag.ofDigest held.digest, ?given, ?asked, ?sent⟩
  case given =>
    intro η reply ok content headers member
    have tagged : reply.tag? = some (Tag.ofDigest held.digest) := by
      rw [Buffered.tag?_of_ok ok (content ▸ heldContent), content]
    have single :
        headers.values .etag = [⟨utf8 (Tag.ofDigest held.digest)⟩] := by
      rcases List.mem_cons.mp member with rfl | finalized
      · exact Buffered.values_etag_revalidate tagged
      · rw [List.mem_singleton.mp finalized]
        exact Buffered.values_etag_finalize tagged
    exact ⟨single, Headers.text?_etag single⟩
  case asked =>
    intro η reply conditional
    have own := conditional.tag?_eq currentContent
    refine
      ⟨conditional.render, conditional.frame, ?_, ?_, ?_,
        reply.revalidate_revalidate⟩
    · rw [← conditional.expected_eq_iff]
      constructor
      · intro answered
        by_contra other
        rw [Buffered.revalidate_of_not_held own other] at answered
        have still := reply.status_withTag (Tag.ofDigest current.digest)
        rw [conditional.status] at still
        exact absurd (still.symm.trans answered) (by decide)
      · intro same
        exact (Buffered.notModified_revalidate own same).status
    · intro halves
      have same := conditional.expected_eq_iff.mpr halves
      rw [Tag.ofDigest_eq_iff.mpr halves]
      refine ⟨Buffered.notModified_revalidate own same, ?_⟩
      rw [Buffered.revalidate_of_held own same]
      rfl
    · intro halves
      have other := mt conditional.expected_eq_iff.mp halves
      rw [Buffered.revalidate_of_not_held own other, Buffered.withTag_eq own]
  case sent =>
    intro turns machine run rested slot content present conditional halves legs
      brings bare distinct free
    have settled : content.reply.Settled :=
      run.settled _
        (List.mem_append_right _
          (List.mem_map.mpr
            ⟨content, Registry.mem_contents_of_get? present, rfl⟩))
    have own := conditional.tag?_eq currentContent
    have same := conditional.expected_eq_iff.mpr halves
    rw [Tag.ofDigest_eq_iff.mpr halves]
    obtain ⟨⟨reply, guarded, arrived, answered⟩, once⟩ :=
      Session.notModified_conditional present settled own same brings bare
        distinct free
    refine ⟨once, reply, guarded, arrived, answered, ?_⟩
    intro plain
    refine
      ⟨_, Session.answer_deliver arrived plain, ?_⟩
    rw [answered.deliver_eq]
    refine ⟨answered.status, ?_, answered.body, ?_⟩
    · simp only [Noted.silent, Headers.values_remove, answered.etag]
      rfl
    · simp only [Noted.silent, Headers.remove, Registry.get?_erase, if_true]

/--
Two integers whose digests differ in their high halves only: the client that holds
the tag of the first is told that the second was not modified, after a journey with
a guard too.
-/
theorem revalidation_round_trip_collision :
    let held : Payload := .whole ⟨45722065038606, by decide, by decide⟩
    let current : Payload := .whole ⟨152890109765050, by decide, by decide⟩
    let legs : List Leg := [.take "b", .guard, .unguard, .ask .finalize]
    held.isEmpty = false ∧
      current.isEmpty = false ∧
      held.digest ≠ current.digest ∧
      held.digest.toUInt32 = current.digest.toUInt32 ∧
      ∃ tag turns machine,
        Run turns machine ∧
          machine.tasks = [] ∧
          (∃ content,
            machine.session.slots.get? "a" = some content ∧
              content.reply.Conditional tag current) ∧
          (∃ reply guarded,
            (machine.session.afterAll
                (journey "a" (.ask .revalidate :: legs))).slots.get? "b" =
                some ⟨reply, guarded⟩ ∧
              reply.NotModified tag) := by
  intro held current legs
  have halves : held.digest.toUInt32 = current.digest.toUInt32 := by
    decide +kernel
  obtain ⟨tag, -, -, sent⟩ :=
    revalidation_round_trip
      (show held.isEmpty = false from rfl)
      (show current.isEmpty = false from rfl)
  have stored := (Run.start.order rfl (.create "a")).work rfl
  have filled :=
    (stored.order rfl (.act "a" (.ask (.setPayload current)))).work rfl
  have ready :=
    (filled.order rfl (.act "a" (.ask (.expect (some tag))))).work rfl
  have conditional :
      (Buffered.blank 0 |>.setPayload current |>.expect tag :
        Response).Conditional tag current :=
    ⟨rfl, rfl, rfl⟩
  obtain ⟨-, reply, guarded, arrived, answered, -⟩ := by
    refine
      sent _ _ ready rfl "a" _ rfl conditional halves legs
        (by simp [legs, Leg.BringsOn, Leg.asks]) (fun _ => rfl) (by decide) ?_
    intro target member
    rw [List.mem_singleton.mp member]
    rfl
  exact
    ⟨rfl, rfl, by decide +kernel, halves, tag, _, _, ready, rfl,
      ⟨_, rfl, conditional⟩, reply, guarded, arrived, answered⟩

end Reply
