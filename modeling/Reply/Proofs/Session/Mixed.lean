import Reply.Proofs.Session.Identities

namespace Reply.Mixed

/-!
# Sessions over both variants

Buffered and streamed replies live side by side.  They draw identities and serial
numbers from the same counters, and a probe that was released from a reply of one
variant may be attached to one of the other.  A streamed reply is acted on between any
two turns of the machine, also while a handler plays.  What holds of tokens and of
identities in sessions of one variant holds across both.
-/

/-- A streamed reply with the identity that it was made with. -/
structure Stream where
  born : Nat
  reply : Streamed Streaming.Handler

/-- Its identity. -/
def Stream.id (stream : Stream) : Nat :=
  stream.reply.id

/-- A machine, the streamed replies beside it, and the handlers released from those. -/
structure State where
  machine : Machine
  streams : Registry String Stream
  handlers : Registry String Streaming.Handler

namespace State

/-- Nothing has happened. -/
def initial : State :=
  ⟨.atRest .initial, .empty, .empty⟩

/-- The streaming session that a streamed reply is acted on in. -/
def around (state : State) (stream : Stream) : Streaming.Session where
  born := stream.born
  reply := stream.reply
  handlers := state.handlers
  probes := state.machine.session.probes
  flags := state.machine.session.flags
  nextSerial := state.machine.session.nextSerial

/-- The state after a streaming session was left, its reply going back into a slot. -/
def resumed
    (state : State)
    (slot : String)
    (session : Streaming.Session) :
    State where
  machine :=
    { state.machine with
      session :=
        { state.machine.session with
          probes := session.probes
          flags := session.flags
          nextSerial := session.nextSerial } }
  streams := state.streams.put slot ⟨session.born, session.reply⟩
  handlers := session.handlers

/-- A new streamed reply in a slot; a former one there is destroyed. -/
def opened (state : State) (slot : String) (capacity : Nat) : State where
  machine := { state.machine with session := state.machine.session.grown }
  streams :=
    state.streams.put slot
      ⟨state.machine.session.nextId,
        .ofCapacity state.machine.session.nextId capacity⟩
  handlers := state.handlers

/-- The streamed reply in a slot is destroyed. -/
def closed (state : State) (slot : String) : State :=
  { state with streams := state.streams.erase slot }

end State

/-- What happens next: a turn of the machine, or something done to streamed replies. -/
inductive Turn
  | buffered (turn : Reply.Turn)
  | streamed (turn : Streaming.Turn)
  | opened (id : Nat) (former? : Option Stream)
  | closed (former? : Option Stream)

/-- Where a turn leads. -/
inductive Leads (state : State) : Turn → State → Prop
  | buffered
      {turn : Reply.Turn}
      (follows : turn.Follows state.machine) :
      Leads state (.buffered turn) { state with machine := turn.after }
  | streamed
      (slot : String)
      {stream : Stream}
      (present : state.streams.get? slot = some stream)
      (step : Streaming.Step) :
      Leads state (.streamed ⟨state.around stream, step⟩)
        (state.resumed slot ((state.around stream).perform step).session)
  | opened (slot : String) (capacity : Nat) :
      Leads state
        (.opened state.machine.session.nextId (state.streams.get? slot))
        (state.opened slot capacity)
  | closed (slot : String) :
      Leads state (.closed (state.streams.get? slot)) (state.closed slot)

/-- The turns from the initial state to a state, in order. -/
inductive Run : List Turn → State → Prop
  | start : Run [] .initial
  | turn
      {turns : List Turn}
      {state next : State}
      (run : Run turns state)
      {turn : Turn}
      (leads : Leads state turn next) :
      Run (turns ++ [turn]) next

/-! ## Runs of one variant -/

/-- A buffered run is one without streamed replies. -/
theorem Run.ofBuffered
    {turns : List Reply.Turn}
    {machine : Machine}
    (run : Reply.Run turns machine) :
    Run (turns.map Turn.buffered) ⟨machine, .empty, .empty⟩ := by
  induction run with
  | start => exact .start
  | order _ rested command inductionHypothesis =>
      rw [List.map_append]
      exact inductionHypothesis.turn (.buffered (.order rested command))
  | work _ planned inductionHypothesis =>
      rw [List.map_append]
      exact inductionHypothesis.turn (.buffered (.work planned))

/-- A streaming run is one that opens a slot and does nothing but act on what is in it. -/
theorem Run.ofStreamed
    {capacity : Nat}
    {turns : List Streaming.Turn}
    {session : Streaming.Session}
    (run : Streaming.Run capacity turns session)
    (slot : String) :
    ∃ state stream,
      Run (.opened 0 none :: turns.map Turn.streamed) state ∧
        state.streams.get? slot = some stream ∧
        state.around stream = session := by
  induction run with
  | start =>
      exact
        ⟨_, ⟨0, .ofCapacity 0 capacity⟩, Run.start.turn (.opened slot capacity),
          (Registry.get?_put ..).trans (if_pos rfl), rfl⟩
  | step _ step inductionHypothesis =>
      obtain ⟨state, stream, reached, present, rfl⟩ := inductionHypothesis
      have next := reached.turn (.streamed slot present step)
      rw [List.cons_append, ← List.map_singleton, ← List.map_append] at next
      let left := ((state.around stream).perform step).session
      exact
        ⟨_, ⟨left.born, left.reply⟩, next,
          (Registry.get?_put ..).trans (if_pos rfl), rfl⟩

/-! ## What every state has -/

/-- What the laws of a turn rest on. -/
structure State.Sound (state : State) : Prop where
  /-- Each buffered reply in hand has one task that will put it down. -/
  balanced : state.machine.Balanced
  /-- A completed buffered reply has no handler. -/
  settled : ∀ reply ∈ state.machine.replies, reply.Settled
  /-- A streamed reply has the identity that it was made with. -/
  own : ∀ stream ∈ state.streams.contents, stream.id = stream.born

section

variable {state next : State} {turn : Turn}

/-- The reply that a step leaves in a slot has the identity that was there. -/
theorem State.Sound.id_perform
    (sound : state.Sound)
    {slot : String}
    {stream : Stream}
    (present : state.streams.get? slot = some stream)
    (step : Streaming.Step) :
    ((state.around stream).perform step).session.reply.id = stream.id ∧
      ((state.around stream).perform step).session.born = stream.born := by
  have own := sound.own stream (Registry.mem_contents_of_get? present)
  obtain ⟨kept, born⟩ :=
    @Streaming.Session.id_perform (state.around stream) own step
  exact ⟨kept.trans own.symm, born⟩

theorem Leads.sound
    (leads : Leads state turn next)
    (sound : state.Sound) :
    next.Sound := by
  cases leads with
  | buffered follows =>
      exact
        { balanced := follows.balanced_after sound.balanced
          settled := lasting_settled.after sound.settled follows
          own := sound.own }
  | @streamed slot former present step =>
      refine ⟨sound.balanced, sound.settled, ?_⟩
      intro stream member
      rcases Registry.mem_contents_put member with rfl | other
      · obtain ⟨kept, born⟩ := sound.id_perform present step
        have own := sound.own former (Registry.mem_contents_of_get? present)
        exact kept.trans (own.trans born.symm)
      · exact sound.own stream other
  | opened slot capacity =>
      refine ⟨sound.balanced, sound.settled, ?_⟩
      intro stream member
      rcases Registry.mem_contents_put member with rfl | other
      · rfl
      · exact sound.own stream other
  | closed slot =>
      refine ⟨sound.balanced, sound.settled, ?_⟩
      intro stream member
      exact sound.own stream (Registry.contents_erase_subset _ slot member)

end

theorem Run.sound
    {turns : List Turn}
    {state : State}
    (run : Run turns state) :
    state.Sound := by
  induction run with
  | start => exact ⟨rfl, List.forall_mem_nil _, List.forall_mem_nil _⟩
  | turn _ leads inductionHypothesis => exact leads.sound inductionHypothesis

/-! ## Tokens -/

/-- The tokens attached to a streamed reply. -/
def Stream.tokens (stream : Stream) : List Token :=
  stream.reply.handler.toList.flatMap Streaming.Handler.tokens ++
    stream.reply.probe.toList.flatMap Probe.tokens

/-- The tokens attached to live replies of either variant or held in a store. -/
def State.tokens (state : State) : List Token :=
  state.machine.attached ++ state.machine.session.held ++
    (state.streams.contents.flatMap Stream.tokens ++
      state.handlers.contents.flatMap Streaming.Handler.tokens)

namespace Turn

/-- The token that a turn makes. -/
def made : Turn → List Token
  | .buffered turn => turn.made
  | .streamed turn => turn.made
  | _ => []

/-- The tokens that a turn discards. -/
def discarded : Turn → List Token
  | .buffered turn => turn.discarded
  | .streamed turn => turn.discarded
  | .opened _ former? => former?.toList.flatMap Stream.tokens
  | .closed former? => former?.toList.flatMap Stream.tokens

/-- The handlers that fire in a turn. -/
def fired : Turn → List Token
  | .buffered turn => firings turn.events
  | .streamed turn => Streaming.firings turn.events
  | _ => []

end Turn

section

variable {state next : State} {turn : Turn}

/-- What a turn finds and makes is what it leaves, fires and discards. -/
theorem Leads.count_tokens
    (leads : Leads state turn next)
    (sound : state.Sound)
    (token : Token) :
    next.tokens.count token + turn.fired.count token +
        turn.discarded.count token =
      state.tokens.count token + turn.made.count token := by
  cases leads with
  | @buffered turn follows =>
      have living := follows.replies_before sound.balanced
      have law := turn.custody (living ▸ sound.settled) token
      have attached : turn.before.attached = state.machine.attached :=
        congrArg (List.flatMap Buffered.tokens) living
      rw [attached, follows.session_before] at law
      simp only [State.tokens, Turn.fired, Turn.discarded, Turn.made,
        List.count_append] at law ⊢
      omega
  | @streamed slot stream present step =>
      have law := step.custody (state.around stream) token
      have exchanged :=
        state.streams.count_flatMap_put Stream.tokens slot
          ⟨((state.around stream).perform step).session.born,
            ((state.around stream).perform step).session.reply⟩ token
      rw [present, Option.toList_some, List.flatMap_singleton] at exchanged
      simp only [Streaming.Session.tokens, State.tokens, State.resumed,
        State.around, Stream.tokens, Turn.fired, Turn.discarded, Turn.made,
        Streaming.Turn.events, Streaming.Turn.discarded, Streaming.Turn.made,
        Machine.attached, Machine.replies, Session.replies, Session.held,
        List.count_append] at law exchanged ⊢
      omega
  | opened slot capacity =>
      have bare :
          Stream.tokens
              ⟨state.machine.session.nextId,
                .ofCapacity state.machine.session.nextId capacity⟩ =
            [] :=
        rfl
      have exchanged :=
        state.streams.count_flatMap_put Stream.tokens slot
          ⟨state.machine.session.nextId,
            .ofCapacity state.machine.session.nextId capacity⟩ token
      rw [bare, List.count_nil] at exchanged
      simp only [State.tokens, State.opened, Turn.fired, Turn.discarded,
        Turn.made, Machine.attached, Machine.replies, Session.replies,
        Session.grown, Session.held, List.count_append, List.count_nil]
      omega
  | closed slot =>
      have taken := state.streams.count_flatMap_erase Stream.tokens slot token
      simp only [State.tokens, State.closed, Turn.fired, Turn.discarded,
        Turn.made, List.count_append, List.count_nil]
      omega

/-- A turn makes at most one token, with the next serial number. -/
theorem Leads.numbered (leads : Leads state turn next) :
    Numbered turn.made state.machine.session.nextSerial
      next.machine.session.nextSerial := by
  cases leads with
  | @buffered turn follows =>
      rw [← follows.session_before]
      exact turn.numbered
  | @streamed _ stream _ step => exact step.numbered (state.around stream)
  | opened | closed => exact Or.inl ⟨rfl, rfl⟩

end

/-! ## Identities -/

/-- The identities of live replies of either variant. -/
def State.ids (state : State) : List Nat :=
  state.machine.replies.map Buffered.id ++
    state.streams.contents.map Stream.id

namespace Turn

/-- The identities that a turn gives out. -/
def born : Turn → List Nat
  | .buffered turn => turn.deed.born
  | .opened id _ => [id]
  | _ => []

/-- The identities of the replies that a turn lets go for good. -/
def gone : Turn → List Nat
  | .buffered turn => turn.deed.gone.map Buffered.id
  | .opened _ former? => former?.toList.map Stream.id
  | .closed former? => former?.toList.map Stream.id
  | .streamed _ => []

end Turn

section

variable {state next : State} {turn : Turn}

/-- Identities that live before a turn or that it gives out live on or are gone. -/
theorem Leads.count_ids
    (leads : Leads state turn next)
    (sound : state.Sound)
    (id : Nat) :
    next.ids.count id + turn.gone.count id =
      state.ids.count id + turn.born.count id := by
  cases leads with
  | @buffered turn follows =>
      have law := turn.count_ids id
      rw [follows.replies_before sound.balanced] at law
      simp only [State.ids, Turn.gone, Turn.born, List.count_append] at law ⊢
      omega
  | @streamed slot stream present step =>
      have exchanged :=
        ((state.streams.contents_put slot
          ⟨((state.around stream).perform step).session.born,
            ((state.around stream).perform step).session.reply⟩).map
          Stream.id).count_eq id
      have same :
          Stream.id
              ⟨((state.around stream).perform step).session.born,
                ((state.around stream).perform step).session.reply⟩ =
            stream.id :=
        (sound.id_perform present step).1
      rw [present] at exchanged
      simp only [Option.toList_some, List.map_cons, List.singleton_append,
        List.count_cons, same] at exchanged
      simp only [State.ids, State.resumed, Turn.gone, Turn.born,
        Machine.replies, Session.replies, List.count_append, List.count_nil]
      omega
  | opened slot capacity =>
      have exchanged :=
        ((state.streams.contents_put slot
          ⟨state.machine.session.nextId,
            .ofCapacity state.machine.session.nextId capacity⟩).map
          Stream.id).count_eq id
      have same :
          Stream.id
              ⟨state.machine.session.nextId,
                .ofCapacity state.machine.session.nextId capacity⟩ =
            state.machine.session.nextId :=
        rfl
      simp only [List.map_append, List.map_cons, List.count_append,
        List.count_cons, same] at exchanged
      simp only [State.ids, State.opened, Turn.gone, Turn.born,
        Machine.replies, Session.replies, Session.grown, List.count_append,
        List.count_singleton]
      omega
  | closed slot =>
      have taken :=
        ((state.streams.contents_erase slot).map Stream.id).count_eq id
      simp only [List.map_append, List.count_append] at taken
      simp only [State.ids, State.closed, Turn.gone, Turn.born,
        List.count_append, List.count_nil]
      omega

/-- A turn gives out at most the next identity. -/
theorem Leads.range_nextId (leads : Leads state turn next) :
    List.range next.machine.session.nextId =
      List.range state.machine.session.nextId ++ turn.born := by
  cases leads with
  | @buffered turn follows =>
      rw [← follows.session_before]
      exact turn.range_nextId
  | opened => exact List.range_succ
  | streamed | closed => exact (List.append_nil _).symm

end

/-! ## Whole runs -/

namespace Run

variable {turns : List Turn} {state : State}

/-- In every run no two tokens that were made are the same, of whichever variant. -/
theorem nodup_made (run : Run turns state) :
    (turns.flatMap Turn.made).Nodup ∧
      ∀ token ∈ turns.flatMap Turn.made,
        token.serial < state.machine.session.nextSerial := by
  induction run with
  | start => exact ⟨List.nodup_nil, List.forall_mem_nil _⟩
  | turn _ leads inductionHypothesis =>
      rw [List.flatMap_append, List.flatMap_singleton]
      exact
        leads.numbered.nodup_append inductionHypothesis.1
          inductionHypothesis.2

/-- In every run each token that was made is in exactly one place. -/
theorem perm_places (run : Run turns state) :
    (state.tokens ++ turns.flatMap Turn.fired ++
        turns.flatMap Turn.discarded).Perm
      (turns.flatMap Turn.made) := by
  induction run with
  | start => exact List.Perm.refl _
  | turn run leads inductionHypothesis =>
      apply List.perm_iff_count.mpr
      intro token
      have law := leads.count_tokens run.sound token
      have former := inductionHypothesis.count_eq token
      simp only [List.flatMap_append, List.flatMap_singleton,
        List.count_append] at former ⊢
      omega

/-- In every run identities are given out one after the other. -/
theorem born_eq_range (run : Run turns state) :
    turns.flatMap Turn.born = List.range state.machine.session.nextId := by
  induction run with
  | start => rfl
  | turn _ leads inductionHypothesis =>
      rw [List.flatMap_append, List.flatMap_singleton, inductionHypothesis]
      exact leads.range_nextId.symm

/-- In every run an identity that was given out lives once or is gone. -/
theorem perm_ids (run : Run turns state) :
    (state.ids ++ turns.flatMap Turn.gone).Perm (turns.flatMap Turn.born) := by
  induction run with
  | start => exact List.Perm.refl _
  | turn run leads inductionHypothesis =>
      apply List.perm_iff_count.mpr
      intro id
      have law := leads.count_ids run.sound id
      have former := inductionHypothesis.count_eq id
      simp only [List.flatMap_append, List.flatMap_singleton,
        List.count_append] at former ⊢
      omega

end Run

/--
At every boundary of a run over both variants each handler and probe ever made is in
exactly one place: on one live reply of either variant, under one name of one store,
among the fired handlers, or among the discarded tokens.  So no handler fires twice.
-/
theorem linear_across_variants
    {turns : List Turn}
    {state : State}
    (run : Run turns state) :
    (turns.flatMap Turn.made).Nodup ∧
      (state.tokens ++ turns.flatMap Turn.fired ++
          turns.flatMap Turn.discarded).Perm
        (turns.flatMap Turn.made) ∧
      (turns.flatMap Turn.fired).Nodup := by
  have places := run.perm_places
  have single := places.nodup_iff.mpr run.nodup_made.1
  have present := (List.nodup_append.mp single).1
  exact
    ⟨run.nodup_made.1, places, (List.nodup_append.mp present).2.1⟩

/--
As long as fewer than 2 ^ 64 identities were given out over both variants, no two live
replies have the same one, of whichever variant they are, and none is given out twice;
a streamed reply keeps the one that it was made with.
-/
theorem identities_across_variants
    {turns : List Turn}
    {state : State}
    (run : Run turns state)
    (few : (turns.flatMap Turn.born).length < 2 ^ 64) :
    (state.ids.map identityWord).Nodup ∧
      ((turns.flatMap Turn.born).map identityWord).Nodup ∧
      state.ids ⊆ turns.flatMap Turn.born ∧
      ∀ stream ∈ state.streams.contents, stream.id = stream.born := by
  have given := run.born_eq_range
  rw [given, List.length_range] at few
  have places := run.perm_ids
  rw [given] at places ⊢
  have subset : state.ids ⊆ List.range state.machine.session.nextId :=
    fun id member => places.subset (List.mem_append_left _ member)
  have fits :
      ∀ id ∈ List.range state.machine.session.nextId, id + 1 < 2 ^ 64 := by
    intro id member
    have bound := List.mem_range.mp member
    omega
  have live : state.ids.Nodup :=
    (List.nodup_append.mp (places.nodup_iff.mpr List.nodup_range)).1
  exact
    ⟨nodup_map_identityWord live fun id member => fits id (subset member),
      nodup_map_identityWord List.nodup_range fits, subset, run.sound.own⟩

/--
A probe put on a buffered reply is released and attached to a streamed one, whose
identity follows that of the buffered reply.
-/
example :
    ∃ turns state,
      Run turns state ∧
        state.ids = [0, 1] ∧
        state.machine.attached = [] ∧
        state.streams.contents.flatMap Stream.tokens = [.probe 0] := by
  have made := Run.start.turn (.buffered (.order rfl (.create "a")))
  have stored := made.turn (.buffered (.work rfl))
  have opened := stored.turn (.opened "s" 8)
  have probing :=
    opened.turn (.buffered (.order rfl (.act "a" (.ask (.setProbe "up")))))
  have probed := probing.turn (.buffered (.work rfl))
  have releasing :=
    probed.turn (.buffered (.order rfl (.act "a" (.ask (.releaseProbe "p")))))
  have released := releasing.turn (.buffered (.work rfl))
  have last := released.turn (.streamed "s" rfl (.attachProbe "p"))
  exact ⟨_, _, last, rfl, rfl, rfl⟩

end Reply.Mixed
