import Reply.Proofs.Session.Finalizing
import Reply.Proofs.Session.StreamedCustody

namespace Reply

/-!
# Completed replies hold no handler

Whoever looks at a reply, between commands, between the steps of a script, when a
handler fires or while a guarded reply is let go, finds that it is pending or has
no handler.  So a reply that moves loses no handler, and none can be released from
a completed one.
-/

/-! ## Streamed replies -/

namespace Streaming

/-- A completed streamed reply has no handler. -/
def Session.Settled (session : Session) : Prop :=
  session.reply.completed = true → session.reply.handler = none

theorem Session.settled_of_pending
    {session : Session}
    (pending : session.reply.completed = false) :
    session.Settled := by
  intro completed
  rw [pending] at completed
  contradiction

/-- A content step leaves the completed mark as it was. -/
theorem Step.completed_of_content
    (session : Session)
    {step : Step}
    (content : step.isContent = true) :
    (session.perform step).session.reply.completed =
      session.reply.completed := by
  cases step with
  | setField name octets =>
      simp only [Session.perform, Streamed.setField]
      cases session.reply.message.setField name octets <;> rfl
  | setStatus code =>
      simp only [Session.perform, Streamed.setStatus]
      cases session.reply.message.setStatus code <;> rfl
  | write octets =>
      simp only [Session.perform, Streamed.write]
      cases session.reply.body.write octets <;> rfl
  | writeBody octets =>
      simp only [Session.perform]
      cases session.reply.body.write octets <;> rfl
  | frame =>
      simp only [Session.perform]
      split <;> rfl
  | clear | finalize | setHandler | releaseHandler | invokeHandler
  | attachHandler | setProbe | releaseProbe | attachProbe =>
      contradiction
  | _ => rfl

/-- A step leaves a completed reply without a handler if it was so before. -/
theorem Session.Settled.perform
    {session : Session}
    (settled : session.Settled)
    (step : Step) :
    (session.perform step).session.Settled := by
  cases content : step.isContent with
  | true =>
      intro completed
      rw [Step.completed_of_content session content] at completed
      rw [(step.onContent session content).handler]
      exact settled completed
  | false =>
      cases step with
      | clear | setHandler => exact settled_of_pending rfl
      | setProbe => exact settled
      | finalize =>
          simp only [Session.perform, Session.finalize, Streamed.finalize]
          cases completed : session.reply.completed with
          | true => exact fun _ => settled completed
          | false =>
              simp only [Bool.false_eq_true, if_false]
              split <;> exact fun _ => rfl
      | releaseHandler name =>
          rw [Session.perform, Session.releaseHandler_eq]
          exact fun _ => rfl
      | invokeHandler name =>
          simp only [Session.perform, Session.invokeHandler]
          split <;> exact settled
      | attachHandler name =>
          simp only [Session.perform, Session.attachHandler]
          split
          · exact settled_of_pending rfl
          · exact settled
      | releaseProbe name =>
          rw [Session.perform, Session.releaseProbe_eq]
          exact settled
      | attachProbe name =>
          rw [Session.perform, Session.attachProbe_eq]
          exact settled
      | _ => contradiction

/-- In every streaming run a completed reply has no handler. -/
theorem Run.settled
    {capacity : Nat}
    {turns : List Turn}
    {session : Session}
    (run : Run capacity turns session) :
    session.Settled := by
  induction run with
  | start => exact Session.settled_of_pending rfl
  | step run step inductionHypothesis => exact inductionHypothesis.perform step

/-- No handler can be released from a reply that has none. -/
theorem Session.releaseHandler_of_none
    {session : Session}
    (bare : session.reply.handler = none)
    (name : String) :
    (session.releaseHandler name).answer = .handler false ∧
      (session.releaseHandler name).session.handlers = session.handlers := by
  constructor <;>
    simp only [releaseHandler, Streamed.detach, bare]

end Streaming

/-! ## Buffered replies -/

/-- No handler can be released from a reply that has none. -/
theorem Session.releaseHandler_of_none
    {reply : Response}
    (bare : reply.handler = none)
    (session : Session)
    (name : String) :
    (session.releaseHandler reply name).answer = .handler false ∧
      (session.releaseHandler reply name).session = session := by
  constructor <;>
    simp only [releaseHandler, Buffered.detach, bare]

/--
At every boundary of a run a completed reply has no handler, and neither has one
that a handler is fired on, by whichever way.  So a reply that is taken moves as it
is, nothing can be released from a completed reply, and a handler that a finalize
call fires is given a completed reply without a handler whose tag, if it has one,
is the one value of its field.  A streamed reply is no different.
-/
theorem completed_holds_no_handler :
    (∀ (turns : List Turn) (machine : Machine),
      Run turns machine →
        (∀ reply ∈ machine.replies,
          (reply.completed = true → reply.handler = none) ∧
            (∀ fresh, (reply.relocate fresh).value.1 = reply) ∧
            (reply.completed = true →
              ∀ (session : Session) (name : String),
                (session.releaseHandler reply name).answer = .handler false ∧
                  (session.releaseHandler reply name).session = session)) ∧
          (∀ event ∈ eventsOf turns,
            ∀ reply, event.reply? = some reply →
              reply.completed = true → reply.handler = none) ∧
          (∀ before, .work before .finalize ∈ turns →
            ∀ event ∈ (Turn.work before .finalize).events,
              ∀ reply, event.reply? = some reply →
                reply.completed = true ∧
                  reply.handler = none ∧
                  ∀ tag, reply.tag? = some tag →
                    reply.message.headers.values .etag = [⟨utf8 tag⟩])) ∧
      (∀ (capacity : Nat)
          (turns : List Streaming.Turn)
          (session : Streaming.Session),
        Streaming.Run capacity turns session →
          session.reply.completed = true →
            session.reply.handler = none ∧
              ∀ name : String,
                (session.releaseHandler name).answer = .handler false ∧
                  (session.releaseHandler name).session.handlers =
                    session.handlers) := by
  refine ⟨?buffered, ?streaming⟩
  case buffered =>
    intro turns machine run
    refine ⟨?live, (lasting_settled.run_fired run).2, ?handed⟩
    case live =>
      intro reply alive
      have settled := run.settled reply alive
      refine ⟨settled, settled.relocate_eq, ?_⟩
      intro completed
      exact Session.releaseHandler_of_none (settled completed)
    case handed =>
      intro before carriedOut event member reply concerns
      obtain ⟨top, below, handler, hand, due, rfl⟩ :=
        Turn.due_of_fired member concerns
      exact Buffered.handed_of_due due
  case streaming =>
    intro capacity turns session run completed
    have bare := run.settled completed
    exact ⟨bare, Streaming.Session.releaseHandler_of_none bare⟩

/--
A handler that attaches another one to the reply it is given, before it finalizes
it again: at the second completion, in its script, the reply has no handler left.
A streamed reply that is finalized has none either.
-/
theorem completed_holds_no_handler_rearmed :
    (∃ turns machine reply,
      Run turns machine ∧
        firings (eventsOf turns) = [.handler 0, .handler 1] ∧
        machine.tasks ≠ [] ∧
        machine.hand = [reply] ∧
        reply.completed = true ∧
        reply.handler = none) ∧
      ∃ turns session,
        Streaming.Run 8 turns session ∧
          session.reply.completed = true ∧
          session.reply.handler = none := by
  constructor
  · have stored := (Run.start.order rfl (.create "a")).work rfl
    have armed :=
      (stored.order rfl
        (.act "a"
          (.ask
            (.setHandler "h"
              [("set_handler", .setHandler "g" []),
                ("finalize", .finalize)])))).work rfl
    have fired := (armed.order rfl (.act "a" (.ask .finalize))).work rfl
    have rearmed := (fired.work rfl).work rfl
    have again := (rearmed.work rfl).work rfl
    have settled :=
      (completed_holds_no_handler.1 _ _ again).1 _ List.mem_cons_self
    exact
      ⟨_, _, _, again, rfl, List.cons_ne_nil _ _, rfl, rfl, settled.1 rfl⟩
  · have armed := (show Streaming.Run 8 [] _ from .start).step (.setHandler "h" [])
    have finalized := armed.step .finalize
    exact
      ⟨_, _, finalized, rfl,
        (completed_holds_no_handler.2 8 _ _ finalized rfl).1⟩

end Reply
