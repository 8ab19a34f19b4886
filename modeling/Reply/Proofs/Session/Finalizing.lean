import Reply.Proofs.Session.Transparency
import Reply.Proofs.Tagging

namespace Reply

/-!
# What one finalize call does

A finalize call acts on the reply on top.  It counts one completion, fires the
handler that is due, if one is, and that handler is given the reply as the call
leaves it: completed, without a handler and with its tag put in.
-/

/-! ## Finalizing a reply -/

/-- The counter that a finalize call increments. -/
def Counter.ofCall
    (variant : Variant)
    (completed : Bool)
    (status : Status) :
    Counter :=
  if completed then .finalizedTwice variant else .finalized variant status.code

/-- A finalize call does not count that nothing was modified. -/
theorem Counter.ofCall_ne_notModified
    (variant : Variant)
    (completed : Bool)
    (status : Status) :
    ofCall variant completed status ≠ .notModified := by
  unfold ofCall
  split <;> simp

namespace Buffered

variable {η : Type}

/-- A finalize call counts one completion. -/
theorem counters_finalize (reply : Buffered η) :
    counters (reply.finalize.notes.map Event.noted) =
      [.ofCall .buffered reply.completed reply.message.status] := by
  have completed := (Kept.tagged reply).completed
  obtain ⟨headers, tagged, -⟩ := reply.exists_headers_tagged
  unfold finalize Counter.ofCall
  dsimp only
  rw [completed]
  cases reply.completed with
  | true => rfl
  | false =>
      rw [tagged]
      cases reply.handler <;> rfl

/--
Finalizing a completed reply leaves no handler due and changes at most the tag's
field.
-/
theorem finalize_of_completed
    {reply : Buffered η}
    (completed : reply.completed = true) :
    ∃ headers,
      reply.finalize.value =
          ({ reply with message := { reply.message with headers := headers } },
            none) ∧
        headers.remove .etag = reply.message.headers.remove .etag := by
  obtain ⟨headers, tagged, others⟩ := reply.exists_headers_tagged
  refine ⟨headers, ?_, others⟩
  rw [finalize_value, if_pos completed, tagged]

/-- A reply whose handler is due is completed, has none left and names its tag. -/
theorem handed_of_due
    {reply : Buffered η}
    {handler : η}
    (due : reply.finalize.value.2 = some handler) :
    reply.finalize.value.1.completed = true ∧
      reply.finalize.value.1.handler = none ∧
      ∀ tag, reply.finalize.value.1.tag? = some tag →
        reply.finalize.value.1.message.headers.values .etag =
          [⟨utf8 tag⟩] := by
  refine ⟨?_, ?_, ?_⟩
  · rw [finalize_value] at due ⊢
    split
    · next completed =>
        rw [if_pos completed] at due
        contradiction
    · rfl
  · rw [finalize_value] at due ⊢
    split
    · next completed =>
        rw [if_pos completed] at due
        contradiction
    · rfl
  · intro tag current
    rw [tag?_finalize] at current
    exact values_etag_finalize current

end Buffered

/-! ## Finalizing the reply on top -/

section

variable
    {machine : Machine}
    {reply : Response}
    {below : List Response}

/-- What a finalize call makes of a machine, all in one. -/
theorem Machine.finalize_eq
    (hand : machine.hand = reply :: below) :
    machine.finalize =
      { machine with
        hand := reply.finalize.value.1 :: below
        tasks :=
          (reply.finalize.value.2.toList.map fun handler =>
            .play handler.name handler.script) ++ machine.tasks
        trace :=
          machine.trace ++
            (reply.finalize.notes.map Event.noted ++
              reply.finalize.value.2.toList.map fun handler =>
                .fired handler.serial handler.name reply.finalize.value.1
                  (Probe.isAlive machine.session.flags
                    reply.finalize.value.1.probe)) } := by
  simp only [finalize, hand]
  cases reply.finalize.value.2 with
  | none => simp [note]
  | some handler => simp [note, fire]

/-- The events of a finalize call: its notes, and the handler that fires. -/
theorem Turn.events_finalize
    (hand : machine.hand = reply :: below) :
    (Turn.work machine .finalize).events =
      reply.finalize.notes.map Event.noted ++
        reply.finalize.value.2.toList.map fun handler =>
          .fired handler.serial handler.name reply.finalize.value.1
            (Probe.isAlive machine.session.flags
              reply.finalize.value.1.probe) := by
  simp only [events, after, before, Machine.perform, Machine.finalize_eq hand,
    List.drop_left]

/-- A finalize call without a reply in hand leaves no event. -/
theorem Turn.events_finalize_nil
    (empty : machine.hand = []) :
    (Turn.work machine .finalize).events = [] := by
  simp only [events, after, before, Machine.perform, Machine.finalize, empty,
    List.drop_length]

/-- A finalize call fires a handler only on the reply as the call leaves it. -/
theorem Turn.due_of_fired
    {event : Event}
    (member : event ∈ (Turn.work machine .finalize).events)
    {given : Response}
    (concerns : event.reply? = some given) :
    ∃ top below handler,
      machine.hand = top :: below ∧
        top.finalize.value.2 = some handler ∧
        given = top.finalize.value.1 := by
  cases hand : machine.hand with
  | nil =>
      rw [events_finalize_nil hand] at member
      contradiction
  | cons top below =>
      rw [events_finalize hand] at member
      rcases List.mem_append.mp member with noted | fired
      · obtain ⟨note, -, rfl⟩ := List.mem_map.mp noted
        contradiction
      · obtain ⟨handler, due, rfl⟩ := List.mem_map.mp fired
        exact
          ⟨top, below, handler, rfl, Option.mem_toList.mp due,
            (Option.some.inj concerns).symm⟩

/-- Firing the handler that is due counts nothing. -/
theorem counters_fired
    (due : Option Handler)
    (given : Response)
    (alive : Bool) :
    counters
        (due.toList.map fun handler =>
          .fired handler.serial handler.name given alive) =
      [] := by
  cases due <;> rfl

/-- A finalize call counts the completion of the reply on top and nothing else. -/
theorem Turn.counters_finalize
    (hand : machine.hand = reply :: below) :
    counters (Turn.work machine .finalize).events =
      [.ofCall .buffered reply.completed reply.message.status] := by
  rw [events_finalize hand, counters_append, reply.counters_finalize,
    counters_fired, List.append_nil]

end

end Reply
