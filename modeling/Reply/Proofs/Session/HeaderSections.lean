import Reply.Proofs.Legality
import Reply.Proofs.Session.Descent
import Reply.Proofs.Session.Settled
import Reply.Proofs.Session.StreamedMessage

namespace Reply

/-!
# Header sections in every state

Whatever a deed yields has a header section that results by legal edits from that of
the reply it takes up, so that in every run legal messages, and blank ones, lead to
legal header sections only.
-/

open Headers (WellFormed Single)

/-! ## Buffered sessions -/

namespace Step

/-- A step edits the header section of the reply that stays in hand. -/
theorem edited_reply
    (step : Step)
    (session : Session)
    (reply : Response) :
    reply.Edited (step.apply session reply).reply := by
  cases step with
  | setField name octets =>
      simp only [apply]
      cases accepted : reply.setField name octets with
      | error failure => exact .refl
      | ok changed => exact Buffered.edited_setField accepted
  | setStatus code =>
      simp only [apply]
      cases accepted : reply.setStatus code with
      | error failure => exact .refl
      | ok changed => exact Buffered.edited_setStatus accepted
  | keepAlive keep => exact Connection.edited_persist _ keep _
  | frame =>
      simp only [apply]
      split <;> exact Message.edited_frame reply.message
  | clear | relocate => exact .cleared
  | insertPayload key value =>
      simp only [apply]
      cases reply.payload.insert? key value <;> exact .refl
  | pushPayload value =>
      simp only [apply]
      cases reply.payload.push? value <;> exact .refl
  | render => exact reply.edited_render
  | revalidate => exact reply.edited_revalidate
  | releaseHandler name =>
      rw [apply, Session.releaseHandler_eq]
      exact .refl
  | invokeHandler name =>
      rw [apply, Session.invokeHandler_eq]
      exact .refl
  | attachHandler name =>
      rw [apply, Session.attachHandler_eq]
      exact .refl
  | releaseProbe name =>
      rw [apply, Session.releaseProbe_eq]
      exact .refl
  | attachProbe name =>
      rw [apply, Session.attachProbe_eq]
      exact .refl
  | checkProbe name =>
      rw [apply, Session.checkProbe_eq]
      exact .refl
  | _ => exact .refl

/-- A step edits the header section of every reply that it leaves. -/
theorem edited_apply
    (step : Step)
    (session : Session)
    (reply : Response) :
    ∀ left ∈ (step.apply session reply).replies, reply.Edited left := by
  have own := step.edited_reply session reply
  rcases step.relocates_or_inPlace session reply with ⟨slot, rfl⟩ | stays
  · intro left member
    rcases List.mem_cons.mp member with rfl | moved
    · exact own
    · rw [List.mem_singleton.mp moved]
      exact .refl
  · exact forall_replies_of_sequel stays.carried own

end Step

/-- What a deed yields is made anew or edited from what it takes up. -/
theorem Deed.edited_yielded
    (deed : Deed) :
    ∀ left ∈ deed.yielded,
      (∃ reply ∈ deed.used, reply.Edited left) ∨ deed = .made left := by
  intro left member
  cases deed with
  | idle | letGo | destroyed => contradiction
  | made reply => exact Or.inr (List.mem_singleton.mp member ▸ rfl)
  | stepped session reply step =>
      exact
        Or.inl
          ⟨reply, List.mem_singleton_self reply,
            step.edited_apply session reply left member⟩
  | finalized reply =>
      rw [List.mem_singleton.mp member]
      exact
        Or.inl ⟨reply, List.mem_singleton_self reply, reply.edited_finalize⟩
  | unwrapped fresh reply =>
      rw [List.mem_singleton.mp member]
      exact Or.inl ⟨reply, List.mem_singleton_self reply, .refl⟩

/-- The message that a turn adopts, if it does. -/
def Turn.adopted? : Turn → Option (Message String)
  | .order _ (.adopt _ message) => some message
  | _ => none

/-- The header sections that the replies of turns start from. -/
def origins (turns : List Turn) : List Headers :=
  .empty :: (turns.filterMap Turn.adopted?).map Message.headers

/-- A reply that is made starts from a blank or an adopted header section. -/
theorem Turn.mem_origins_of_made
    {turns : List Turn}
    {turn : Turn}
    (member : turn ∈ turns)
    {reply : Response}
    (made : turn.deed = .made reply) :
    reply.message.headers ∈ origins turns := by
  have does := turn.does
  rw [made] at does
  cases does with
  | created => exact List.mem_cons_self
  | adopted session slot message =>
      have given : message ∈ turns.filterMap Turn.adopted? :=
        List.mem_filterMap.mpr ⟨_, member, rfl⟩
      exact List.mem_cons_of_mem _ (List.mem_map_of_mem given)

/-- In every run live replies say what edits made of what they started from. -/
theorem Run.exists_origin
    {turns : List Turn}
    {machine : Machine}
    (run : Run turns machine) :
    ∀ reply ∈ machine.replies,
      ∃ origin ∈ origins turns, origin.Edited reply.message.headers := by
  refine
    run.forall_replies
      (fun reply =>
        ∃ origin ∈ origins turns, origin.Edited reply.message.headers) ?_
  intro turn member used left yielded
  rcases turn.deed.edited_yielded left yielded with
    ⟨reply, inUse, edited⟩ | made
  · obtain ⟨origin, start, earlier⟩ := used reply inUse
    exact ⟨origin, start, earlier.trans edited⟩
  · exact ⟨_, Turn.mem_origins_of_made member made, .refl⟩

/-! ## Streaming sessions -/

namespace Streaming

/-- A step edits the header section by legal fields. -/
theorem Step.edited_edit
    (message : Message BoundedBuffer)
    (step : Step) :
    message.headers.Edited (step.edit message).headers := by
  cases step with
  | setField name octets =>
      simp only [edit]
      cases accepted : message.setField name octets with
      | error failure => exact .refl
      | ok edited => exact Message.edited_setField accepted
  | setStatus code =>
      simp only [edit]
      cases accepted : message.setStatus code with
      | error failure => exact .refl
      | ok edited => exact Message.edited_setStatus accepted
  | keepAlive keep => exact Connection.edited_persist _ keep _
  | frame => exact Message.edited_frame message
  | clear => exact .cleared
  | _ => exact .refl

/-- In every run the reply says what edits made of a blank header section. -/
theorem Run.edited
    {capacity : Nat}
    {turns : List Turn}
    {session : Session}
    (run : Run capacity turns session) :
    Headers.Edited .empty session.reply.message.headers := by
  induction run with
  | start => exact .refl
  | @step turns session run step inductionHypothesis =>
      rw [session.message_perform step]
      exact inductionHypothesis.trans (step.edited_edit _)

end Streaming

/-! ## Every state -/

/--
At every boundary of a run that adopts well-formed messages only, every live reply
has a well-formed header section, and so would the message that it is handed off as;
if no adopted message repeats a name, each name there has exactly one value.  Of
streaming sessions both hold in every run.
-/
theorem headers_well_formed :
    (∀ turns machine,
      Run turns machine →
        (∀ message ∈ turns.filterMap Turn.adopted?,
          message.headers.WellFormed) →
        ∀ reply ∈ machine.replies,
          reply.message.headers.WellFormed ∧
            reply.deliver.value.headers.WellFormed ∧
            ((∀ message ∈ turns.filterMap Turn.adopted?,
                message.headers.Single) →
              reply.message.headers.Single ∧
                reply.deliver.value.headers.Single)) ∧
      ∀ capacity turns session,
        Streaming.Run capacity turns session →
          session.reply.message.headers.WellFormed ∧
            session.reply.message.headers.Single := by
  constructor
  · intro turns machine run valid reply member
    obtain ⟨origin, start, edited⟩ := run.exists_origin reply member
    have delivered := edited.trans reply.edited_deliver
    have fromOrigin :
        ∀ {property : Headers → Prop},
          property .empty →
            (∀ message ∈ turns.filterMap Turn.adopted?,
              property message.headers) →
            property origin := by
      intro property blank given
      rcases List.mem_cons.mp start with rfl | inAdopted
      · exact blank
      · obtain ⟨message, inTurns, rfl⟩ := List.mem_map.mp inAdopted
        exact given message inTurns
    have wellFormed := fromOrigin Headers.wellFormed_empty valid
    refine
      ⟨edited.wellFormed wellFormed, delivered.wellFormed wellFormed, ?_⟩
    intro unrepeated
    have single := fromOrigin Headers.single_empty unrepeated
    exact ⟨edited.single single, delivered.single single⟩
  · intro capacity turns session run
    exact
      ⟨run.edited.wellFormed Headers.wellFormed_empty,
        run.edited.single Headers.single_empty⟩

/--
An adopted message with two values of a field takes another field, is refused a line
break and keeps its two values; a new reply has one value a field, however often it
is set.
-/
theorem headers_well_formed_line_break_refused :
    (∃ turns machine,
      Run turns machine ∧
        (machine.replies.map fun reply =>
            reply.message.headers.entries.map fun field =>
              (field.1.text, field.2.map Field.Value.octets)) =
          [[("accept", [[0x61], [0x62]]), ("x-a", [[0x09, 0x80]]),
            ("connection", [utf8 "close"])]] ∧
        ∀ reply ∈ machine.replies, reply.message.headers.WellFormed) ∧
      (∃ turns machine,
        Run turns machine ∧
          machine.replies.length = 1 ∧
          ∀ reply ∈ machine.replies, reply.message.headers.Single) ∧
      ∃ turns session,
        Streaming.Run 8 turns session ∧
          session.reply.message.headers.WellFormed := by
  refine ⟨?adopting, ?making, ?streaming⟩
  case adopting =>
    have adopted :=
      Run.start.order rfl
        (.adopt "a"
          { status := .ok
            version := .http11
            headers := .put .empty ⟨"accept"⟩ [⟨[0x61]⟩, ⟨[0x62]⟩]
            body := "" })
    have named :=
      ((adopted.work rfl).order rfl
        (.act "a" (.ask (.setField "X-A" [0x09, 0x80])))).work rfl
    have refused :=
      (named.order rfl
        (.act "a" (.ask (.setField "X-B" [0x0d, 0x0a])))).work rfl
    have closing :=
      (refused.order rfl (.act "a" (.ask (.keepAlive false)))).work rfl
    refine ⟨_, _, closing, by decide +kernel, ?_⟩
    intro reply member
    exact (headers_well_formed.1 _ _ closing (by decide +kernel) reply member).1
  case making =>
    have made := Run.start.order rfl (.create "a")
    have first :=
      ((made.work rfl).order rfl
        (.act "a" (.ask (.setField "A" [0x61])))).work rfl
    have again :=
      (first.order rfl (.act "a" (.ask (.setField "a" [0x62])))).work rfl
    refine ⟨_, _, again, by rfl, ?_⟩
    intro reply member
    exact
      ((headers_well_formed.1 _ _ again (by decide +kernel) reply member).2.2
        (by decide +kernel)).1
  case streaming =>
    have fresh : Streaming.Run 8 [] (.ofCapacity 8) := .start
    have framed := fresh.step .frame
    exact ⟨_, _, framed, (headers_well_formed.2 _ _ _ framed).1⟩

end Reply
