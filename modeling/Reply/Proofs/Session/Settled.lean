import Reply.Proofs.Session.Replies

namespace Reply

/-!
# Completed replies and identities

Two properties that last: a completed reply has no handler, and identities are
below the counter that they come from.  By the first, a reply that moves takes
its handler along; by the second, no identity is given twice.
-/

/-! ## Completed replies -/

/-- A completed reply has no handler. -/
def Buffered.Settled {η : Type} (reply : Buffered η) : Prop :=
  reply.completed = true → reply.handler = none

namespace Buffered

variable {η : Type}

/-- Finalizing leaves no handler on a reply that was settled. -/
theorem Settled.finalize
    {reply : Buffered η}
    (settled : reply.Settled) :
    reply.finalize.value.1.handler = none := by
  rw [finalize_value]
  by_cases completed : reply.completed = true
  · rw [if_pos completed, (Kept.tagged reply).handler]
    exact settled completed
  · rw [if_neg completed]

theorem settled_of_pending
    {reply : Buffered η}
    (pending : reply.completed = false) :
    reply.Settled := by
  intro completed
  rw [pending] at completed
  contradiction

theorem settled_of_none
    {reply : Buffered η}
    (bare : reply.handler = none) :
    reply.Settled :=
  fun _ => bare

/-- A change of neither the mark nor the handler keeps a reply settled. -/
theorem Settled.congr
    {before after : Buffered η}
    (settled : before.Settled)
    (completed : after.completed = before.completed)
    (handler : after.handler = before.handler) :
    after.Settled := by
  intro done
  rw [handler]
  exact settled (completed ▸ done)

/-- A reply that moves is settled, and takes its handler along. -/
theorem Settled.relocate_eq
    {reply : Buffered η}
    (settled : reply.Settled)
    (fresh : Nat) :
    (reply.relocate fresh).value.1 = reply := by
  rcases reply with ⟨id, message, payload, completed, expected, handler, probe⟩
  cases completed with
  | true =>
      have bare : handler = none := settled rfl
      simp only [Buffered.relocate, bare, if_true]
  | false => rfl

end Buffered

/-- A step that carries nothing off leaves the property if its reply has it. -/
theorem forall_replies_of_sequel
    {effect : Effect}
    {property : Response → Prop}
    (nothing : effect.sequel.replies = [])
    (own : property effect.reply) :
    ∀ left ∈ effect.replies, property left := by
  intro left member
  rw [Effect.replies, nothing, List.mem_singleton] at member
  rw [member]
  exact own

/-- A step leaves only settled replies. -/
theorem Step.settled_apply
    (step : Step)
    (session : Session)
    {reply : Response}
    (settled : reply.Settled) :
    ∀ left ∈ (step.apply session reply).replies, left.Settled := by
  cases content : step.isContent with
  | true =>
      have effect := step.onContent session reply content
      apply forall_replies_of_sequel
      · rw [effect.sequel]
        rfl
      · exact settled.congr effect.kept.completed effect.kept.handler
  | false =>
      cases step with
      | clear | setHandler =>
          exact forall_replies_of_sequel rfl (Buffered.settled_of_pending rfl)
      | finalize => exact forall_replies_of_sequel rfl settled
      | releaseHandler name =>
          rw [apply, Session.releaseHandler_eq]
          exact forall_replies_of_sequel rfl (Buffered.settled_of_none rfl)
      | invokeHandler name =>
          rw [apply, Session.invokeHandler_eq]
          exact forall_replies_of_sequel (Sequel.replies_firing _) settled
      | attachHandler name =>
          rw [apply, Session.attachHandler_eq]
          refine forall_replies_of_sequel rfl ?_
          cases session.handlers.get? name with
          | none => exact settled.congr (Bool.and_true _) rfl
          | some handler => exact Buffered.settled_of_pending (Bool.and_false _)
      | setProbe flag => exact forall_replies_of_sequel rfl settled
      | releaseProbe name =>
          rw [apply, Session.releaseProbe_eq]
          exact forall_replies_of_sequel rfl settled
      | attachProbe name =>
          rw [apply, Session.attachProbe_eq]
          exact forall_replies_of_sequel rfl settled
      | relocate slot =>
          intro left member
          rcases List.mem_cons.mp member with rfl | moved
          · exact Buffered.settled_of_pending rfl
          · rw [List.mem_singleton.mp moved, settled.relocate_eq]
            exact settled
      | _ => contradiction

/-- No completed reply ever has a handler. -/
theorem lasting_settled : Lasting fun _ reply => reply.Settled where
  later _ settled := settled
  made _ _ := Buffered.settled_of_pending rfl
  finalized settled := Buffered.settled_of_none settled.finalize
  stepped step settled := step.settled_apply _ settled

/-- In every run a completed reply has no handler. -/
theorem Run.settled
    {turns : List Turn}
    {machine : Machine}
    (run : Run turns machine) :
    ∀ reply ∈ machine.replies, reply.Settled :=
  lasting_settled.run run

/-! ## Identities -/

/-- A step keeps the identity of its reply and gives a blank one a new one. -/
theorem Step.id_apply
    (step : Step)
    {session : Session}
    {reply : Response}
    (given : reply.id < session.nextId) :
    ∀ left ∈ (step.apply session reply).replies,
      left.id < (step.apply session reply).session.nextId := by
  obtain ⟨-, counted⟩ := step.frame_apply session reply
  have kept := Nat.lt_of_lt_of_le given counted
  cases content : step.isContent with
  | true =>
      have effect := step.onContent session reply content
      apply forall_replies_of_sequel
      · rw [effect.sequel]
        rfl
      · rw [effect.kept.id]
        exact kept
  | false =>
      cases step with
      | clear | finalize | setHandler | setProbe =>
          exact forall_replies_of_sequel rfl kept
      | releaseHandler name =>
          rw [apply, Session.releaseHandler_eq] at kept ⊢
          exact forall_replies_of_sequel rfl given
      | invokeHandler name =>
          rw [apply, Session.invokeHandler_eq] at kept ⊢
          exact forall_replies_of_sequel (Sequel.replies_firing _) given
      | attachHandler name =>
          rw [apply, Session.attachHandler_eq] at kept ⊢
          exact forall_replies_of_sequel rfl given
      | releaseProbe name =>
          rw [apply, Session.releaseProbe_eq] at kept ⊢
          exact forall_replies_of_sequel rfl given
      | attachProbe name =>
          rw [apply, Session.attachProbe_eq] at kept ⊢
          exact forall_replies_of_sequel rfl given
      | relocate slot =>
          intro left member
          rcases List.mem_cons.mp member with rfl | moved
          · exact Nat.lt_succ_self _
          · rw [List.mem_singleton.mp moved]
            exact kept
      | _ => contradiction

/-- Identities are given out once: all of them are below the counter. -/
theorem lasting_id_lt : Lasting fun count reply => reply.id < count where
  later counted given := Nat.lt_of_lt_of_le given counted
  made count _ := Nat.lt_succ_self count
  finalized {count reply} given := by
    rw [Buffered.finalize_value]
    have kept := (Buffered.Kept.tagged reply).id
    split <;> exact kept ▸ given
  stepped step given := step.id_apply given

end Reply
