import Reply.Proofs.Session.Conservation
import Reply.Proofs.Session.StreamedCustody

namespace Reply

/-!
# Handlers and probes are linear

A handler or a probe is used at most once, in buffered and in streaming sessions
alike, however steps, handler scripts, guards and slots are combined.
-/

/--
At every boundary of a buffered run, also between the steps of a script, each
handler and probe ever made is in exactly one of these places: on one live reply,
under one name of a store, among the fired handlers, among the discarded ones.
So no handler fires twice in a run, and none fires twice while commands are
performed.  The same holds of streaming sessions.
-/
theorem tokens_linear :
    (∀ (turns : List Turn) (machine : Machine),
        Run turns machine →
          (turns.flatMap Turn.made).Nodup ∧
            (machine.replies.flatMap Buffered.tokens ++
                machine.session.held ++
                firings (eventsOf turns) ++
                turns.flatMap Turn.discarded).Perm
              (turns.flatMap Turn.made) ∧
            machine.session.Keyed ∧
            (firings (eventsOf turns)).Nodup) ∧
      (∀ commands : List Command,
        (firings
          ((Session.initial.performAll commands).flatMap
            Outcome.trace)).Nodup) ∧
      (∀ (capacity : Nat)
          (turns : List Streaming.Turn)
          (session : Streaming.Session),
        Streaming.Run capacity turns session →
          (turns.flatMap Streaming.Turn.made).Nodup ∧
            (session.tokens ++
                Streaming.firings (turns.flatMap Streaming.Turn.events) ++
                turns.flatMap Streaming.Turn.discarded).Perm
              (turns.flatMap Streaming.Turn.made) ∧
            session.Keyed ∧
            (Streaming.firings
              (turns.flatMap Streaming.Turn.events)).Nodup) ∧
      (∀ (capacity : Nat) (steps : List Streaming.Step),
        (Streaming.firings
          (((Streaming.Session.ofCapacity capacity).performAll steps).flatMap
            Streaming.Outcome.trace)).Nodup) := by
  refine ⟨?buffered, ?commands, ?streaming, ?steps⟩
  case buffered =>
    intro turns machine run
    exact
      ⟨run.nodup_made.1, run.perm_places, Session.keyed _, run.nodup_firings⟩
  case commands =>
    intro commands
    obtain ⟨more, last, run, -, -, events⟩ :=
      Run.start.exists_performAll rfl commands
    have single := run.nodup_firings
    rw [List.nil_append, events] at single
    exact single
  case streaming =>
    intro capacity turns session run
    exact
      ⟨run.nodup_made.1, run.perm_places, Streaming.Session.keyed _,
        run.nodup_firings⟩
  case steps =>
    intro capacity steps
    have fresh : Streaming.Run capacity [] (.ofCapacity capacity) := .start
    obtain ⟨more, last, run, events⟩ := fresh.exists_performAll steps
    have single := run.nodup_firings
    rw [List.nil_append, events] at single
    exact single

/--
A handler that finalizes its own reply again fires once, and the probe put on in
its script is where the law has it.  Of two handlers of a streamed reply the former is
discarded for the latter, which is released and invoked, and fires.
-/
theorem tokens_linear_refinalizing :
    (∃ turns machine,
      Run turns machine ∧
        firings (eventsOf turns) = [.handler 0] ∧
        machine.session.held = [.probe 1] ∧
        (machine.replies.flatMap Buffered.tokens ++
            machine.session.held ++
            firings (eventsOf turns) ++
            turns.flatMap Turn.discarded).Perm
          [.handler 0, .probe 1]) ∧
      ∃ turns session,
        Streaming.Run 8 turns session ∧
          session.tokens = [.probe 1] ∧
          Streaming.firings (turns.flatMap Streaming.Turn.events) =
            [.handler 2] ∧
          turns.flatMap Streaming.Turn.discarded = [.handler 0] ∧
          (session.tokens ++
              Streaming.firings (turns.flatMap Streaming.Turn.events) ++
              turns.flatMap Streaming.Turn.discarded).Perm
            [.handler 0, .probe 1, .handler 2] := by
  refine ⟨?buffered, ?streamed⟩
  case buffered =>
    have made := Run.start.order rfl (.create "a")
    have stored := made.work rfl
    have armed :=
      stored.order rfl
        (.act "a"
          (.ask
            (.setHandler "h"
              [("finalize", .finalize), ("set_probe", .setProbe "up"),
                ("release_probe", .releaseProbe "p")])))
    have kept := armed.work rfl
    have asked := kept.order rfl (.act "a" (.ask .finalize))
    have fired := asked.work rfl
    have again := ((fired.work rfl).work rfl).work rfl
    have probed := (again.work rfl).work rfl
    have released := (probed.work rfl).work rfl
    have last := (released.work rfl).work rfl
    exact ⟨_, _, last, rfl, rfl, (tokens_linear.1 _ _ last).2.1⟩
  case streamed =>
    have fresh : Streaming.Run 8 [] (.ofCapacity 8) := .start
    have armed := (fresh.step (.setHandler "h" [])).step (.setProbe "up")
    have replaced := armed.step (.setHandler "g" [("done", true)])
    have released := replaced.step (.releaseHandler "kept")
    have invoked := released.step (.invokeHandler "kept")
    have last := invoked.step (.releaseProbe "p")
    exact
      ⟨_, _, last, rfl, rfl, rfl, (tokens_linear.2.2.1 _ _ _ last).2.1⟩

end Reply
