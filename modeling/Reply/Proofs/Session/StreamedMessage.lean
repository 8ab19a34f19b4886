import Reply.Proofs.BoundedBuffer
import Reply.Proofs.Session.StreamedCustody

namespace Reply

/-!
# Messages of streamed replies

What a step of a streaming session does to the message depends on the message alone.
For the body this is at most one use of its buffer, so that bodies have the histories
of bounded buffers.
-/

open BoundedBuffer

namespace Streamed

variable {η : Type}

/-- A way to the body of a streamed reply. -/
inductive Access
  | write (octets : Octets)
  | lend (step : Use)
  | clear

/-- What an access does to the buffer. -/
def Access.use : Access → Use
  | .write octets => .write octets
  | .lend step => step
  | .clear => .clear

/-- The reply after an access; a refused write leaves it as it was. -/
def access (reply : Streamed η) : Access → Streamed η
  | .write octets =>
      match (reply.write octets).value with
      | .ok written => written
      | .error _ => reply
  | .lend step => reply.setBody (reply.body.use step)
  | .clear => reply.clear.value

/-- Writing changes the body as one use of it does, and nothing else. -/
theorem access_write
    (reply : Streamed η)
    (octets : Octets) :
    reply.access (.write octets) =
      reply.setBody (reply.body.use (.write octets)) := by
  simp only [access, write, use]
  cases reply.body.write octets with
  | error failure => rfl
  | ok body => rfl

/-- An access is one use of the body. -/
theorem body_access
    (reply : Streamed η)
    (step : Access) :
    (reply.access step).body = reply.body.use step.use := by
  cases step with
  | write octets =>
      rw [access_write]
      rfl
  | lend step => rfl
  | clear => rfl

/-- Accesses are uses of the body, one after the other. -/
theorem body_foldl_access
    (reply : Streamed η)
    (steps : List Access) :
    (steps.foldl access reply).body =
      reply.body.useAll (steps.map Access.use) := by
  induction steps generalizing reply with
  | nil => rfl
  | cons step rest inductionHypothesis =>
      calc
        ((step :: rest).foldl access reply).body
            = (reply.access step).body.useAll (rest.map Access.use) :=
              inductionHypothesis (reply.access step)
        _ = reply.body.useAll ((step :: rest).map Access.use) := by
              rw [body_access]
              rfl

end Streamed

namespace Streaming

/-! ## One step -/

namespace Step

/-- The message after a step. -/
def edit (message : Message BoundedBuffer) : Step → Message BoundedBuffer
  | .setField name octets =>
      match message.setField name octets with
      | .ok edited => edited
      | .error _ => message
  | .setStatus code =>
      match message.setStatus code with
      | .ok edited => edited
      | .error _ => message
  | .setVersion version => { message with version := version }
  | .keepAlive keep => message.keepAlive keep
  | .frame => message.frame
  | .clear => .around message.body.clear
  | .write octets => { message with body := message.body.use (.write octets) }
  | .writeBody octets =>
      { message with body := message.body.use (.write octets) }
  | .consumeBody count =>
      { message with body := message.body.use (.consume count) }
  | _ => message

/-- The use of the body that a step is, if it is one. -/
def use? : Step → Option Use
  | .write octets => some (.write octets)
  | .writeBody octets => some (.write octets)
  | .consumeBody count => some (.consume count)
  | .clear => some .clear
  | _ => none

/-- There are two steps that write. -/
theorem eq_of_use?_write
    {step : Step}
    {octets : Octets}
    (writes : step.use? = some (.write octets)) :
    step = .write octets ∨ step = .writeBody octets := by
  cases step with
  | write written =>
      injection writes with same
      injection same with same
      exact Or.inl (congrArg _ same)
  | writeBody written =>
      injection writes with same
      injection same with same
      exact Or.inr (congrArg _ same)
  | consumeBody | clear =>
      injection writes with other
      contradiction
  | _ => contradiction

/-- An edit of the message is at most one use of its body. -/
theorem body_edit
    (message : Message BoundedBuffer)
    (step : Step) :
    (step.edit message).body = message.body.useAll step.use?.toList := by
  cases step with
  | setField name octets =>
      simp only [edit]
      unfold Message.setField
      split
      · next edited done =>
          split at done
          · contradiction
          · contradiction
          · injection done with same
            rw [← same]
            rfl
      · rfl
  | setStatus code =>
      simp only [edit, Message.setStatus]
      cases Status.ofCode? code with
      | none => rfl
      | some status => rfl
  | _ => rfl

end Step

namespace Session

/-- A finalized reply says what it said before. -/
theorem message_finalize (session : Session) :
    session.finalize.session.reply.message = session.reply.message := by
  unfold finalize Streamed.finalize
  split
  · rfl
  · cases session.reply.handler with
    | none => rfl
    | some handler => rfl

/-- A write uses the body and answers how much it took in, or why it did not. -/
theorem perform_write
    (session : Session)
    {step : Step}
    {octets : Octets}
    (writes : step.use? = some (.write octets)) :
    (session.perform step).session.reply =
        session.reply.setBody (session.reply.body.use (.write octets)) ∧
      (session.perform step).answer =
        if octets.length ≤ session.reply.body.remaining then
          .count octets.length
        else
          .failed (.overflow octets.length session.reply.body.remaining) := by
  rcases Step.eq_of_use?_write writes with rfl | rfl
  all_goals
    by_cases fits : octets.length ≤ session.reply.body.remaining
    · rw [if_pos fits, use_write_of_le fits]
      simp only [perform, writing, Streamed.write, Noted.silent,
        write_of_le fits, Except.map, and_self]
    · have exceeds := Nat.lt_of_not_le fits
      rw [if_neg fits, use_write_of_lt exceeds]
      simp only [perform, writing, Streamed.write, Noted.silent,
        write_of_lt exceeds, Except.map, and_true]
      rfl

/-- A step edits the message as the message alone determines. -/
theorem message_perform
    (session : Session)
    (step : Step) :
    (session.perform step).session.reply.message =
      step.edit session.reply.message := by
  cases step with
  | setField name octets =>
      simp only [perform, Streamed.setField, Step.edit]
      cases session.reply.message.setField name octets with
      | error failure => rfl
      | ok message => rfl
  | setStatus code =>
      simp only [perform, Streamed.setStatus, Step.edit]
      cases session.reply.message.setStatus code with
      | error failure => rfl
      | ok message => rfl
  | write octets | writeBody octets =>
      exact congrArg Streamed.message (session.perform_write rfl).1
  | frame =>
      simp only [perform]
      split <;> rfl
  | finalize => exact session.message_finalize
  | releaseHandler name =>
      simp only [perform, releaseHandler]
      split <;> rfl
  | invokeHandler name =>
      simp only [perform, invokeHandler]
      split <;> rfl
  | attachHandler name =>
      simp only [perform, attachHandler]
      split <;> rfl
  | releaseProbe name =>
      simp only [perform, releaseProbe]
      split <;> rfl
  | attachProbe name =>
      simp only [perform, attachProbe]
      split <;> rfl
  | _ => rfl

end Session

/-! ## Whole runs -/

/-- The uses of the body in turns, in order. -/
def uses (turns : List Turn) : List Use :=
  turns.filterMap fun turn => turn.step.use?

/-- After a run the body is the new buffer after the uses of it. -/
theorem Run.body_eq
    {capacity : Nat}
    {turns : List Turn}
    {session : Session}
    (run : Run capacity turns session) :
    session.reply.body = (ofCapacity capacity).useAll (uses turns) := by
  induction run with
  | start => rfl
  | @step turns session _ step inductionHypothesis =>
      have oneMore :
          uses (turns ++ [⟨session, step⟩]) =
            uses turns ++ step.use?.toList := by
        rw [uses, List.filterMap_append]
        cases used : step.use? with
        | none => simp only [List.filterMap_cons, used]; rfl
        | some use => simp only [List.filterMap_cons, used]; rfl
      calc
        (session.perform step).session.reply.body
            = (step.edit session.reply.message).body :=
              congrArg Message.body (session.message_perform step)
        _ = session.reply.body.useAll step.use?.toList :=
              Step.body_edit session.reply.message step
        _ = (ofCapacity capacity).useAll (uses turns ++ step.use?.toList) := by
              rw [inductionHypothesis, useAll_append]
        _ = (ofCapacity capacity).useAll
                (uses (turns ++ [⟨session, step⟩])) := by
              rw [oneMore]

/--
A buffer of any capacity, whatever is done to it, keeps the capacity and is a queue
within it; what it took in since its creation or since a clearing is what came out
of it since then, followed by what it holds.  The body of a streamed reply is such a
buffer, got at through the reply in any order, and so it is in every run of a session,
where a write that fits answers its length and any other one the overflow.
-/
theorem buffer_lossless (capacity : Nat) :
    (∀ uses,
      ((ofCapacity capacity).useAll uses).capacity = capacity ∧
        ((ofCapacity capacity).useAll uses).Fifo) ∧
      (∀ later,
        .clear ∉ later →
          (ofCapacity capacity).acceptedAll later =
              (ofCapacity capacity).droppedAll later ++
                ((ofCapacity capacity).useAll later).contents ∧
            ∀ former,
              let cleared := (ofCapacity capacity).useAll (former ++ [.clear])
              cleared.acceptedAll later =
                cleared.droppedAll later ++
                  ((ofCapacity capacity).useAll
                    (former ++ .clear :: later)).contents) ∧
      (∀ (id : Nat) (steps : List Streamed.Access),
        (steps.foldl Streamed.access
            (Streamed.ofCapacity id capacity : Streamed Handler)).body =
          (ofCapacity capacity).useAll (steps.map Streamed.Access.use)) ∧
      (∀ turns session,
        Run capacity turns session →
          session.reply.body = (ofCapacity capacity).useAll (uses turns) ∧
            ∀ step octets,
              step.use? = some (.write octets) →
                (session.perform step).answer =
                  if octets.length ≤ session.reply.body.remaining then
                    .count octets.length
                  else
                    .failed
                      (.overflow octets.length
                        session.reply.body.remaining)) := by
  refine ⟨fifo_useAll capacity, ?_, ?_, ?_⟩
  · intro later kept
    refine ⟨balance_since rfl kept, ?_⟩
    intro former
    have cleared :
        ((ofCapacity capacity).useAll (former ++ [.clear])).contents = [] := by
      rw [useAll_append]
      rfl
    have goesOn :
        (ofCapacity capacity).useAll (former ++ .clear :: later) =
          ((ofCapacity capacity).useAll (former ++ [.clear])).useAll later := by
      rw [← useAll_append, List.append_assoc]
      rfl
    rw [goesOn]
    exact balance_since cleared kept
  · intro id steps
    exact Streamed.body_foldl_access _ steps
  · intro turns session run
    refine ⟨run.body_eq, ?_⟩
    intro step octets writes
    exact (session.perform_write writes).2

/--
With room for four octets, three are written, two more refused, two read and the
refused ones written again, which leaves room for one.
-/
theorem buffer_lossless_refused_write :
    ∃ turns session,
      Run 4 turns session ∧
        uses turns =
          [.write [1, 2, 3], .write [4, 5], .consume 2, .write [4, 5]] ∧
        session.reply.body.contents = [3, 4, 5] ∧
        (ofCapacity 4).acceptedAll (uses turns) = [1, 2, 3, 4, 5] ∧
        (ofCapacity 4).acceptedAll (uses turns) =
          (ofCapacity 4).droppedAll (uses turns) ++
            session.reply.body.contents ∧
        (session.perform (.write [6, 7])).answer =
          .failed (.overflow 2 1) := by
  obtain ⟨-, balance, -, streamed⟩ := buffer_lossless 4
  have fresh : Run 4 [] (.ofCapacity 4) := .start
  have refused := (fresh.step (.write [1, 2, 3])).step (.write [4, 5])
  have run := (refused.step (.consumeBody 2)).step (.writeBody [4, 5])
  have same := (streamed _ _ run).1
  have uncleared :
      .clear ∉ [Use.write [1, 2, 3], .write [4, 5], .consume 2,
        .write [4, 5]] := by
    simp only [List.mem_cons, List.not_mem_nil, reduceCtorEq, or_self,
      not_false_iff]
  refine ⟨_, _, run, rfl, rfl, rfl, ?_, ?_⟩
  · rw [same]
    exact (balance _ uncleared).1
  · exact (streamed _ _ run).2 (.write [6, 7]) [6, 7] rfl

end Streaming

end Reply
