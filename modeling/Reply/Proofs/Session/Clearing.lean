import Reply.Proofs.Session.Completion
import Reply.Proofs.Session.Identities
import Reply.Proofs.Session.Mirroring
import Reply.Proofs.Session.StreamedMessage

namespace Reply

/-!
# Clearing a reply

A cleared reply is a newly made one with the handler that is still pending and the
probe of the cleared one, under the identity of the cleared one.  Nothing asked
later tells the two apart, be it asked of this reply, by a handler or of another
reply.
-/

/-! ## A new reply in place of the cleared one -/

namespace Buffered

variable {η : Type}

/-- The handler that the next completion fires. -/
def pending? (reply : Buffered η) : Option η :=
  if reply.completed then none else reply.handler

/-- A newly made reply that is given the pending handler and the probe of another. -/
def renewal (reply : Buffered η) (fresh : Nat) : Buffered η :=
  let made : Buffered η := blank fresh
  let armed :=
    match reply.pending? with
    | some handler => (made.attach handler).value
    | none => made
  { armed with probe := reply.probe }

/-- A new reply has nothing but the handler and the probe that it is given. -/
theorem renewal_eq (reply : Buffered η) (fresh : Nat) :
    reply.renewal fresh =
      { (blank fresh : Buffered η) with
        handler := reply.pending?
        probe := reply.probe } := by
  unfold renewal
  cases reply.pending? <;> rfl

theorem Settled.pending?_eq
    {reply : Buffered η}
    (settled : reply.Settled) :
    reply.pending? = reply.handler := by
  unfold pending?
  split
  · next completed => exact (settled completed).symm
  · rfl

/-- Clearing a settled reply makes it new but for its identity. -/
theorem Settled.clear_eq
    {reply : Buffered η}
    (settled : reply.Settled) :
    reply.clear.value = reply.renewal reply.id := by
  rw [renewal_eq, settled.pending?_eq]
  rfl

end Buffered

/-- Identities when one reply gets the next one and those given later move up. -/
def renewing (old fresh id : Nat) : Nat :=
  if id = old then fresh else if id < fresh then id else id + 1

theorem renewing_self (old fresh : Nat) : renewing old fresh old = fresh :=
  if_pos rfl

theorem renewing_of_lt
    {old fresh id : Nat}
    (other : id ≠ old)
    (given : id < fresh) :
    renewing old fresh id = id := by
  rw [renewing, if_neg other, if_pos given]

theorem renewing_of_le
    {old fresh id : Nat}
    (given : old < fresh)
    (later : fresh ≤ id) :
    renewing old fresh id = id + 1 := by
  rw [renewing, if_neg (by omega), if_neg (by omega)]

/-- Different identities stay different. -/
theorem renewing_injective (old fresh : Nat) :
    Function.Injective (renewing old fresh) := by
  intro first second same
  simp only [renewing] at same
  split_ifs at same <;> omega

/-- The machine with a new reply, with the next identity, in place of the one on top. -/
def Machine.renewed
    (machine : Machine)
    (reply : Response)
    (below : List Response) :
    Machine where
  session := machine.session.grown
  hand := reply.renewal machine.session.nextId :: below
  tasks := machine.tasks
  trace :=
    machine.trace.map
      (Event.renamed (renewing reply.id machine.session.nextId))

/-- A turn that clears a reply leaves it on top. -/
theorem Turn.hand_of_cleared
    {turn : Turn}
    {session : Session}
    {reply : Response}
    (cleared : turn.deed = .stepped session reply .clear) :
    ∃ below, turn.after.hand = reply.clear.value :: below := by
  have does := turn.does
  rw [cleared] at does
  cases does with
  | @asked former slot content present =>
      refine ⟨[], ?_⟩
      simp only [after, Command.start, present, Action.start, Session.ask]
      rfl
  | @played machine _ below hand handler word _ rest =>
      refine ⟨below, ?_⟩
      simp only [after, Machine.perform, Machine.play, hand]
      rfl

namespace Run

variable {turns : List Turn} {machine : Machine}

/-- The reply that a turn clears was settled. -/
theorem settled_of_cleared
    {turn : Turn}
    (run : Run (turns ++ [turn]) machine)
    {session : Session}
    {reply : Response}
    (cleared : turn.deed = .stepped session reply .clear) :
    reply.Settled := by
  obtain ⟨prior, begun, follows, -⟩ := run.exists_of_snoc
  apply begun.settled
  rw [← begun.replies_before follows]
  apply turn.used_subset
  rw [cleared]
  exact List.mem_singleton.mpr rfl

/-- A machine mirrors itself with a new reply in place of one that was just cleared. -/
theorem mirrors_renewed
    (run : Run turns machine)
    {reply : Response}
    (settled : reply.Settled)
    {below : List Response}
    (hand : machine.hand = reply.clear.value :: below) :
    machine.Mirrors (renewing reply.id machine.session.nextId) []
      (machine.renewed reply below) := by
  have living : reply.clear.value ∈ machine.replies :=
    machine.mem_replies_of_hand hand
  have given : reply.id < machine.session.nextId :=
    lasting_id_lt.run run reply.clear.value living
  have all :
      machine.replies =
        reply.clear.value :: (below ++ machine.session.replies) := by
    rw [Machine.replies, hand]
    rfl
  -- All other replies have identities of their own that were given out before.
  have apart :
      ∀ other ∈ below ++ machine.session.replies,
        other.renamed (renewing reply.id machine.session.nextId) = other := by
    intro other member
    have single := run.nodup_live_ids
    rw [all, List.map_cons, List.nodup_cons] at single
    have otherId : other.id ≠ reply.id := by
      intro same
      exact single.1 (same ▸ List.mem_map_of_mem member)
    have otherGiven : other.id < machine.session.nextId := by
      refine lasting_id_lt.run run other ?_
      rw [all]
      exact List.mem_cons_of_mem _ member
    rw [Buffered.renamed, renewing_of_lt otherId otherGiven]
  refine ⟨⟨?slots, rfl, rfl, rfl, rfl, ?next⟩, ?hand, rfl, rfl⟩
  case slots =>
    intro name _
    simp only [Machine.renewed, Session.grown]
    cases present : machine.session.slots.get? name with
    | none => rfl
    | some content =>
        have inSession : content.reply ∈ machine.session.replies :=
          List.mem_map_of_mem (Registry.mem_contents_of_get? present)
        simp only [Option.map_some, Holding.renamed,
          apart _ (List.mem_append_right _ inSession)]
  case next =>
    intro more
    rw [renewing_of_le given (Nat.le_add_right _ _)]
    simp only [Machine.renewed, Session.grown]
    omega
  case hand =>
    have top :
        reply.renewal machine.session.nextId =
          reply.clear.value.renamed
            (renewing reply.id machine.session.nextId) := by
      rw [Buffered.renewal_eq, settled.pending?_eq, Buffered.renamed]
      simp only [Buffered.clear, renewing_self]
      rfl
    have others :
        below.map
            (Buffered.renamed (renewing reply.id machine.session.nextId)) =
          below :=
      (List.map_congr_left fun other member =>
        apart other (List.mem_append_left _ member)).trans
        (List.map_id below)
    simp only [Machine.renewed, hand, List.map_cons, top, others]

end Run

/-! ## Nothing tells the two apart -/

/--
Two machines do the same and leave the same, up to identities, whatever is asked of
them afterwards.
-/
structure Machine.AlikeUpTo
    (rename : Nat → Nat)
    (first second : Machine) :
    Prop where
  mirrors : first.Mirrors rename [] second
  /-- The work in progress comes to its end alike, with the same events. -/
  rested : first.run.Mirrors rename [] second.run
  events :
    second.run.trace.drop second.trace.length =
      (first.run.trace.drop first.trace.length).map (Event.renamed rename)
  counted :
    counters (second.run.trace.drop second.trace.length) =
      counters (first.run.trace.drop first.trace.length)
  /-- Commands give the same answers and events. -/
  outcomes :
    ∀ commands,
      ((second.run.session.performAll commands).map fun outcome =>
          (outcome.answer, outcome.trace)) =
        (first.run.session.performAll commands).map (Outcome.renamed rename)
  countedLater :
    ∀ commands,
      counters
          ((second.run.session.performAll commands).flatMap Outcome.trace) =
        counters
          ((first.run.session.performAll commands).flatMap Outcome.trace)
  /-- Commands leave the same session. -/
  sessions :
    ∀ commands,
      (first.run.session.afterAll commands).Mirrors rename []
        (second.run.session.afterAll commands)

/-- Machines that mirror each other in all slots are alike. -/
theorem Machine.Mirrors.alikeUpTo
    {rename : Nat → Nat}
    {first second : Machine}
    (mirrors : first.Mirrors rename [] second) :
    first.AlikeUpTo rename second := by
  have unnamed : ∀ name ∈ ([] : List String), name ∉ first.targets := by
    intro name listed
    contradiction
  obtain ⟨rested, -⟩ := mirrors.run unnamed
  have events :
      second.run.trace.drop second.trace.length =
        (first.run.trace.drop first.trace.length).map (Event.renamed rename) := by
    rw [rested.trace, mirrors.trace, List.length_map, List.map_drop]
  refine
    { mirrors := mirrors
      rested := rested
      events := events
      counted := by rw [events, counters_renamed]
      outcomes := fun commands => (rested.session.performAll commands).1
      countedLater := ?_
      sessions := fun commands => (rested.session.performAll commands).2 }
  intro commands
  have traces :
      (second.run.session.performAll commands).flatMap Outcome.trace =
        ((first.run.session.performAll commands).flatMap Outcome.trace).map
          (Event.renamed rename) := by
    have observed :=
      congrArg (List.flatMap Prod.snd)
        (rested.session.performAll commands).1
    simpa only [List.flatMap_map, Outcome.renamed, List.map_flatMap]
      using observed
  rw [traces, counters_renamed]

/-- A handler on a live reply has not fired and is in no store. -/
theorem Run.handler_unspent
    {turns : List Turn}
    {machine : Machine}
    (run : Run turns machine)
    {reply : Response}
    (living : reply ∈ machine.replies)
    {handler : Handler}
    (attached : reply.handler = some handler) :
    Token.handler handler.serial ∉
      machine.session.held ++ firings (eventsOf turns) := by
  have single := run.perm_places.nodup_iff.mpr run.nodup_made.1
  have once := List.nodup_iff_count_le_one.mp single (.handler handler.serial)
  have onReply : Token.handler handler.serial ∈ machine.attached := by
    refine List.mem_flatMap.mpr ⟨reply, living, ?_⟩
    rw [Buffered.tokens, attached]
    exact List.mem_cons_self
  have here := List.count_pos_iff.mpr onReply
  intro elsewhere
  have there := List.count_pos_iff.mpr elsewhere
  simp only [Run.places, List.count_append] at once there
  omega

/-! ## Streamed replies -/

namespace Streamed

variable {η : Type}

/-- The handler that the next completion fires. -/
def pending? (reply : Streamed η) : Option η :=
  if reply.completed then none else reply.handler

/--
A newly made reply of a capacity that is given the pending handler and the probe of
another.
-/
def renewal (reply : Streamed η) (fresh capacity : Nat) : Streamed η :=
  let made : Streamed η := ofCapacity fresh capacity
  let armed :=
    match reply.pending? with
    | some handler => (made.attach handler).value
    | none => made
  { armed with probe := reply.probe }

/-- A new reply has nothing but the handler and the probe that it is given. -/
theorem renewal_eq (reply : Streamed η) (fresh capacity : Nat) :
    reply.renewal fresh capacity =
      { (ofCapacity fresh capacity : Streamed η) with
        handler := reply.pending?
        probe := reply.probe } := by
  unfold renewal
  cases reply.pending? <;> rfl

end Streamed

namespace Streaming

namespace Session

/-- Under another identity steps one after the other do the same. -/
theorem performAll_reborn
    {session : Session}
    (own : session.reply.id = session.born)
    (fresh : Nat)
    (steps : List Step) :
    (session.reborn fresh).performAll steps =
      (session.performAll steps).map fun outcome => outcome.reborn fresh := by
  induction steps generalizing session with
  | nil => rfl
  | cons step rest inductionHypothesis =>
      obtain ⟨kept, born⟩ := Session.id_perform own step
      have next := inductionHypothesis (kept.trans born.symm)
      rw [performAll, perform_reborn own, performAll, List.map_cons, ← next]
      rfl

/-- The session with a new reply of a capacity in place of its own. -/
def renewed (session : Session) (fresh capacity : Nat) : Session :=
  { session with
    born := fresh
    reply := session.reply.renewal fresh capacity }

end Session

namespace Run

variable {capacity : Nat} {turns : List Turn} {session : Session}

/-- A body that is cleared is as empty and as large as it was made. -/
theorem body_clear (run : Run capacity turns session) :
    session.reply.body.clear = .ofCapacity capacity := by
  have whole : session.reply.body.capacity = capacity := by
    rw [run.body_eq]
    exact (BoundedBuffer.fifo_useAll capacity _).1
  rw [BoundedBuffer.clear, whole]
  rfl

/-- Clearing makes a reply new but for its identity. -/
theorem clear_eq (run : Run capacity turns session) :
    session.reply.clear.value =
      session.reply.renewal session.reply.id capacity := by
  have pending : session.reply.pending? = session.reply.handler := by
    unfold Streamed.pending?
    split
    · next completed => exact (run.settled completed).symm
    · rfl
  rw [Streamed.renewal_eq, pending, Streamed.clear, run.body_clear]
  rfl

/-- A handler on the reply has not fired and is in no store. -/
theorem handler_unspent
    (run : Run capacity turns session)
    {handler : Handler}
    (attached : session.reply.handler = some handler) :
    Token.handler handler.serial ∉
      session.handlers.contents.flatMap Handler.tokens ++
        firings (turns.flatMap Turn.events) := by
  have single := run.perm_places.nodup_iff.mpr run.nodup_made.1
  have once := List.nodup_iff_count_le_one.mp single (.handler handler.serial)
  have onReply :
      Token.handler handler.serial ∈
        session.reply.handler.toList.flatMap Handler.tokens := by
    rw [attached]
    exact List.mem_cons_self
  have here := List.count_pos_iff.mpr onReply
  intro elsewhere
  have there := List.count_pos_iff.mpr elsewhere
  simp only [Session.tokens, List.count_append] at once there
  omega

end Run

end Streaming

/-! ## The law -/

/--
When a turn of a run clears a reply, what follows is the same, up to identities that
stay apart, as if a newly made reply with the pending handler and the probe of the
cleared one were in its place: work in progress and all later commands give the same
answers, events and counters and leave the same.  The cleared reply has nothing else
of its earlier use; a handler that it has is one that was pending, is due at the next
completion and has not fired.  A streamed reply is likewise a new one of the capacity
that it was made with, all of which is free.
-/
theorem clear_leaks_nothing :
    (∀ turns turn machine,
      Run (turns ++ [turn]) machine →
        ∀ session reply,
          turn.deed = .stepped session reply .clear →
            ∃ below,
              machine.hand = reply.clear.value :: below ∧
                machine.AlikeUpTo
                  (renewing reply.id machine.session.nextId)
                  (machine.renewed reply below) ∧
                reply.clear.value =
                  { (Buffered.blank reply.id : Response) with
                    handler := reply.pending?
                    probe := reply.probe } ∧
                ∀ handler,
                  reply.pending? = some handler →
                    reply.clear.value.finalize.value.2 = some handler ∧
                      Token.handler handler.serial ∉
                        machine.session.held ++
                          firings (eventsOf (turns ++ [turn]))) ∧
      (∀ old fresh, Function.Injective (renewing old fresh)) ∧
      ∀ (capacity : Nat)
          (turns : List Streaming.Turn)
          (session : Streaming.Session),
        Streaming.Run capacity turns session →
          let cleared := (session.perform .clear).session
          (∀ fresh steps,
            (session.renewed fresh capacity).performAll steps =
              (cleared.performAll steps).map fun outcome =>
                outcome.reborn fresh) ∧
            cleared.reply =
              { (Streamed.ofCapacity session.reply.id capacity :
                  Streamed Streaming.Handler) with
                handler := session.reply.pending?
                probe := session.reply.probe } ∧
            cleared.reply.body.remaining = capacity ∧
            ∀ handler,
              session.reply.pending? = some handler →
                cleared.reply.finalize.value.2 = some handler ∧
                  Token.handler handler.serial ∉
                    cleared.handlers.contents.flatMap
                        Streaming.Handler.tokens ++
                      Streaming.firings
                        ((turns ++ [Streaming.Turn.mk session .clear]).flatMap
                          Streaming.Turn.events) := by
  refine ⟨?buffered, renewing_injective, ?streaming⟩
  case buffered =>
    intro turns turn machine run session reply cleared
    have settled := run.settled_of_cleared cleared
    obtain ⟨prior, -, -, same⟩ := run.exists_of_snoc
    obtain ⟨below, hand⟩ := Turn.hand_of_cleared cleared
    rw [same] at hand
    have blank := settled.clear_eq
    rw [Buffered.renewal_eq] at blank
    refine
      ⟨below, hand, (run.mirrors_renewed settled hand).alikeUpTo, blank, ?_⟩
    intro handler pending
    have attached : reply.clear.value.handler = some handler := by
      rw [blank, pending]
    refine ⟨?_, run.handler_unspent (machine.mem_replies_of_hand hand) attached⟩
    rw [Buffered.finalize_value]
    exact attached
  case streaming =>
    intro capacity turns session run cleared
    have blank : cleared.reply = _ := run.clear_eq
    refine ⟨?same, ?blank, ?room, ?pending⟩
    case same =>
      intro fresh steps
      have own : cleared.reply.id = cleared.born := run.id_eq.1
      have renewed : session.renewed fresh capacity = cleared.reborn fresh := by
        simp only [Streaming.Session.renewed, Streaming.Session.reborn, blank,
          Streamed.renewal_eq]
        rfl
      rw [renewed, Streaming.Session.performAll_reborn own]
    case blank => rw [blank, Streamed.renewal_eq]
    case room =>
      rw [blank, Streamed.renewal_eq]
      rfl
    case pending =>
      intro handler pending
      have attached : cleared.reply.handler = some handler := by
        rw [blank, Streamed.renewal_eq, pending]
      exact ⟨attached, (run.step .clear).handler_unspent attached⟩

/--
A handler that finalizing fires clears its reply, which is left without a handler, a
body or the completion mark.  A streamed reply with a handler is full when it is
cleared, takes as much again and fires the handler.
-/
theorem clear_leaks_nothing_cleared_by_handler :
    (∃ turns turn machine reply below,
      Run (turns ++ [turn]) machine ∧
        reply.completed = true ∧
        reply.message.body = "x" ∧
        firings (eventsOf (turns ++ [turn])) = [.handler 0] ∧
        machine.hand = reply.clear.value :: below ∧
        reply.clear.value.handler = none ∧
        machine.AlikeUpTo
          (renewing reply.id machine.session.nextId)
          (machine.renewed reply below)) ∧
      ∃ turns session,
        Streaming.Run 2 turns session ∧
          session.reply.body.remaining = 0 ∧
          (session.perform .clear).session.reply.body.remaining = 2 ∧
          Streaming.firings
              (((session.renewed 7 2).performAll
                [.write [0x61, 0x62], .finalize]).flatMap
                  Streaming.Outcome.trace) =
            [.handler 0] := by
  constructor
  · have stored := (Run.start.order rfl (.create "a")).work rfl
    have written := (stored.order rfl (.act "a" (.ask (.append "x")))).work rfl
    have armed :=
      (written.order rfl
        (.act "a" (.ask (.setHandler "h" [("clear", .clear)])))).work rfl
    have fired := (armed.order rfl (.act "a" (.ask .finalize))).work rfl
    have cleared := fired.work rfl
    obtain ⟨below, hand, alike, blank, -⟩ :=
      clear_leaks_nothing.1 _ _ _ cleared _ _ rfl
    exact ⟨_, _, _, _, below, cleared, rfl, rfl, rfl, hand, rfl, alike⟩
  · have armed :=
      (show Streaming.Run 2 [] _ from .start).step (.setHandler "h" [])
    have full := armed.step (.write [0x61, 0x62])
    obtain ⟨same, -, room, -⟩ := clear_leaks_nothing.2.2 2 _ _ full
    refine ⟨_, _, full, rfl, room, ?_⟩
    rw [same]
    rfl

end Reply
