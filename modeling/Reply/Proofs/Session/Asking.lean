import Reply.Proofs.Session.Relocation

namespace Reply

/-!
# What asking a step comes to

A step that calls for no further work leaves its reply in the slot that it was
asked of, with what the step made of session and reply.  Finalizing a reply
without a handler calls for none either.
-/

namespace Session

variable
    {session : Session}
    {slot : String}
    {content : Holding}

/-- A step is done when its reply is back if it calls for no further work. -/
theorem perform_ask_quiet
    (present : session.slots.get? slot = some content)
    {step : Step}
    {effect : Effect}
    (stepped : step.apply (session.emptied slot) content.reply = effect)
    (quiet : effect.sequel = .nothing) :
    session.perform (.act slot (.ask step)) =
      ⟨{ effect.session with
          slots :=
            (session.slots.erase slot).put slot
              ⟨effect.reply, content.guarded⟩ },
        effect.answer,
        effect.notes.map Event.noted⟩ := by
  have slots : effect.session.slots = session.slots.erase slot := by
    rw [← stepped, (step.frame_apply _ _).1]
    rfl
  have free : effect.session.slots.get? slot = none := by
    rw [slots, Registry.get?_erase, if_pos rfl]
  have started :
      (Command.act slot (.ask step)).start session =
        (effect.answer,
          (Machine.holding effect.session effect.reply
            [.shelve slot content.guarded]).note effect.notes) := by
    simp only [Command.start, present, Action.start, ask, stepped, quiet]
    rfl
  simp only [perform, started]
  rw [Machine.run_of_shelve rfl rfl free, Machine.run_of_rested rfl]
  simp only [Machine.holding, Machine.note, slots]
  rfl

/-- A content step is done when its reply is back. -/
theorem perform_ask_content
    (present : session.slots.get? slot = some content)
    {step : Step}
    (about : step.isContent = true) :
    session.perform (.act slot (.ask step)) =
      ⟨{ (step.apply (session.emptied slot) content.reply).session with
          slots :=
            (session.slots.erase slot).put slot
              ⟨(step.apply (session.emptied slot) content.reply).reply,
                content.guarded⟩ },
        (step.apply (session.emptied slot) content.reply).answer,
        (step.apply (session.emptied slot) content.reply).notes.map
          Event.noted⟩ :=
  perform_ask_quiet present rfl (step.onContent _ _ about).sequel

/-- Finalizing is the next task, and the reply goes back when all is done. -/
theorem perform_ask_finalize
    (present : session.slots.get? slot = some content) :
    session.perform (.act slot (.ask .finalize)) =
      (fun finished : Machine => ⟨finished.session, .done, finished.trace⟩)
        (Machine.holding (session.emptied slot) content.reply
          [.shelve slot content.guarded]).finalize.run := by
  have started :
      (Command.act slot (.ask .finalize)).start session =
        (.done,
          Machine.holding (session.emptied slot) content.reply
            [.finalize, .shelve slot content.guarded]) := by
    simp only [Command.start, present, Action.start, ask]
    rfl
  simp only [perform, started]
  rw [Machine.run_of_step? (Machine.step?_of_cons rfl)]
  rfl

/-- Finalizing a reply without a handler only changes the reply. -/
theorem perform_finalize_bare
    (present : session.slots.get? slot = some content)
    (bare : content.reply.handler = none) :
    session.perform (.act slot (.ask .finalize)) =
      ⟨{ session with
          slots :=
            (session.slots.erase slot).put slot
              ⟨content.reply.finalize.value.1, content.guarded⟩ },
        .done,
        content.reply.finalize.notes.map Event.noted⟩ := by
  have nothing : content.reply.finalize.value.2 = none := by
    rw [Buffered.finalize_value]
    split
    · rfl
    · exact bare
  have finished :
      (Machine.holding (session.emptied slot) content.reply
          [.shelve slot content.guarded]).finalize =
        (Machine.holding (session.emptied slot) content.reply.finalize.value.1
          [.shelve slot content.guarded]).note
            content.reply.finalize.notes := by
    simp only [Machine.finalize, Machine.holding, nothing]
  rw [perform_ask_finalize present, finished,
    Machine.run_of_shelve rfl rfl get?_emptied_self, Machine.run_of_rested rfl]
  rfl

end Session

end Reply
