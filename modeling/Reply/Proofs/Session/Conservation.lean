import Reply.Proofs.Session.Custody

namespace Reply

/-!
# Conservation of handlers and probes

Every turn of a run leaves, fires and discards exactly the tokens that it finds
and makes, and a token that is made has a serial number that no earlier one has.
By induction on the run, each token that was ever made is in one place.
-/

/-! ## Traces -/

@[simp] theorem firings_append (first second : List Event) :
    firings (first ++ second) = firings first ++ firings second := by
  simp [firings]

@[simp] theorem firings_nil : firings [] = [] :=
  rfl

@[simp] theorem firings_noted (notes : List Note) :
    firings (notes.map Event.noted) = [] := by
  induction notes with
  | nil => rfl
  | cons note rest inductionHypothesis => exact inductionHypothesis

/-! ## Replies in slots -/

namespace Session

/-- The tokens attached to replies in slots. -/
def stowed (session : Session) : List Token :=
  session.replies.flatMap Buffered.tokens

theorem count_stowed_put
    (session : Session)
    (slot : String)
    (holding : Holding)
    (token : Token) :
    ((session.slots.get? slot).toList.flatMap
        fun former => former.reply.tokens).count token +
        ({ session with slots := session.slots.put slot holding } :
          Session).stowed.count token =
      holding.reply.tokens.count token + session.stowed.count token := by
  simp only [stowed, replies, List.flatMap_map]
  exact
    session.slots.count_flatMap_put (fun former => former.reply.tokens) slot
      holding token

theorem count_stowed_emptied
    {session : Session}
    {slot : String}
    {holding : Holding}
    (present : session.slots.get? slot = some holding)
    (token : Token) :
    holding.reply.tokens.count token +
        (session.emptied slot).stowed.count token =
      session.stowed.count token := by
  have taken :=
    session.slots.count_flatMap_erase (fun former => former.reply.tokens) slot
      token
  rw [present, Option.toList_some, List.flatMap_singleton] at taken
  simp only [stowed, replies, emptied, List.flatMap_map]
  exact taken

end Session

/-! ## The law for one task -/

/-- Finalizing splits the tokens of a reply off the handler that is due. -/
theorem Buffered.count_tokens_finalize
    (reply : Response)
    (token : Token) :
    reply.finalize.value.1.tokens.count token +
        (reply.finalize.value.2.toList.flatMap Handler.tokens).count token =
      reply.tokens.count token := by
  rw [finalize_value]
  split
  · rw [(Kept.tagged reply).tokens]
    rfl
  · simp only [Buffered.tokens, (Kept.tagged reply).probe, Option.toList_none,
      List.flatMap_nil, List.nil_append, List.count_append]
    omega

namespace Machine

theorem count_placed
    (machine : Machine)
    (token : Token) :
    machine.placed.count token =
      (machine.hand.flatMap Buffered.tokens).count token +
        machine.session.stowed.count token +
        machine.session.held.count token +
        (firings machine.trace).count token := by
  simp only [placed, attached, replies, Session.stowed, List.flatMap_append,
    List.count_append]

@[simp] theorem placed_note
    (machine : Machine)
    (notes : List Note) :
    (machine.note notes).placed = machine.placed := by
  simp only [placed, attached, replies, note, firings_append, firings_noted,
    List.append_nil]

/-- A handler that fires is on record. -/
theorem count_placed_fire
    {machine : Machine}
    (handler : Handler)
    (held : machine.hand ≠ [])
    (token : Token) :
    (machine.fire handler).placed.count token =
      machine.placed.count token + handler.tokens.count token := by
  rw [fire]
  split
  · contradiction
  · next reply below hand =>
      simp only [count_placed, firings_append, List.count_append, hand]
      exact (Nat.add_assoc ..).symm

/-- What a sequel carries off is taken in hand or fires. -/
theorem count_placed_follow
    {machine : Machine}
    (sequel : Sequel)
    (held : machine.hand ≠ [])
    (token : Token) :
    (machine.follow sequel).placed.count token =
      machine.placed.count token + sequel.tokens.count token := by
  cases sequel with
  | nothing => rfl
  | finalize => rfl
  | fire handler => exact count_placed_fire handler held token
  | store slot reply =>
      simp only [follow, count_placed, Sequel.tokens, List.flatMap_cons,
        List.count_append]
      omega

/-- Finalizing loses nothing: the handler that is due fires. -/
theorem count_placed_finalize
    (machine : Machine)
    (token : Token) :
    machine.finalize.placed.count token = machine.placed.count token := by
  rw [finalize]
  split
  · rfl
  · next reply below hand =>
      have parted := reply.count_tokens_finalize token
      have finished :
          ({ machine with hand := reply.finalize.value.1 :: below }.note
              reply.finalize.notes).placed.count token +
            (reply.finalize.value.2.toList.flatMap Handler.tokens).count token =
          machine.placed.count token := by
        rw [placed_note]
        simp only [count_placed, hand, List.flatMap_cons, List.count_append]
        omega
      dsimp only
      split
      · next handler due =>
          rw [due, Option.toList_some, List.flatMap_singleton] at finished
          rw [← finished]
          exact count_placed_fire handler (List.cons_ne_nil _ _) token
      · next due =>
          rw [due] at finished
          exact finished

/-- Playing a step of a script obeys the law of the step. -/
theorem custody_play
    {machine : Machine}
    {reply : Response}
    {below : List Response}
    (hand : machine.hand = reply :: below)
    (settled : reply.Settled)
    (handler word : String)
    (step : Step)
    (rest : Script)
    (token : Token) :
    (machine.play handler ((word, step) :: rest)).placed.count token +
        (step.discarded machine.session reply).count token =
      machine.placed.count token +
        (step.made machine.session).count token := by
  have law := step.custody machine.session settled token
  have slots := (step.frame_apply machine.session reply).1
  simp only [play, hand]
  rw [count_placed_follow _ (List.cons_ne_nil _ _), placed_note]
  simp only [count_placed, Session.stowed, Session.replies, slots, hand,
    List.flatMap_cons, List.count_append]
  omega

/-- Shelving discards the tokens of a plain reply whose slot is taken. -/
theorem custody_shelve
    (machine : Machine)
    (slot : String)
    (guarded : Bool)
    (token : Token) :
    (machine.shelve slot guarded).placed.count token +
        ((Task.shelve slot guarded).discarded machine).count token =
      machine.placed.count token := by
  cases hand : machine.hand with
  | nil => simp [shelve, Task.discarded, hand]
  | cons reply below =>
      have exchanged :=
        machine.session.count_stowed_put slot ⟨reply, guarded⟩ token
      have same :
          ({ machine.session with
              slots := machine.session.slots.put slot ⟨reply, guarded⟩ } :
            Session).held = machine.session.held :=
        rfl
      simp only [shelve, Task.discarded, hand]
      rcases present : machine.session.slots.get? slot with
        _ | ⟨former, formerGuarded⟩
      · simp only [present, Option.toList_none, List.flatMap_nil,
          List.count_nil] at exchanged
        simp only [count_placed, hand, same, List.flatMap_cons,
          List.count_append, List.count_nil]
        omega
      · simp only [present, Option.toList_some, List.flatMap_cons,
          List.flatMap_nil, List.append_nil] at exchanged
        cases formerGuarded with
        | true =>
            simp only [count_placed, hand, same, List.flatMap_cons,
              List.count_append, List.count_nil]
            omega
        | false =>
            simp only [count_placed, hand, same, List.flatMap_cons,
              List.count_append]
            omega

/-- What a task finds and makes is what it leaves, fires and discards. -/
theorem custody_perform
    {machine : Machine}
    (settled : ∀ reply ∈ machine.replies, reply.Settled)
    (task : Task)
    (token : Token) :
    (machine.perform task).placed.count token +
        (task.discarded machine).count token =
      machine.placed.count token + (task.made machine).count token := by
  cases task with
  | finalize =>
      exact machine.count_placed_finalize token
  | play handler script =>
      cases script with
      | nil => rfl
      | cons line rest =>
          rcases line with ⟨word, step⟩
          cases hand : machine.hand with
          | nil => simp [perform, play, Task.discarded, Task.made, hand]
          | cons reply below =>
              have own : reply.Settled :=
                settled reply (by simp [replies, hand])
              simp only [Task.discarded, Task.made, hand, List.isEmpty_cons,
                Bool.false_eq_true, if_false]
              exact custody_play hand own handler word step rest token
  | report handler word answer =>
      have silent : firings [.reported handler word answer] = [] :=
        rfl
      simp only [perform, Task.discarded, Task.made, count_placed,
        firings_append, silent, List.append_nil]
  | shelve slot guarded => exact machine.custody_shelve slot guarded token
  | discard =>
      cases hand : machine.hand with
      | nil => simp [perform, Task.discarded, Task.made, hand, count_placed]
      | cons reply below =>
          simp only [perform, Task.discarded, Task.made, hand, List.tail_cons,
            count_placed, List.flatMap_cons, List.count_append,
            List.count_nil]
          omega

end Machine

/-! ## The law for one command -/

namespace Machine

theorem count_placed_atRest
    (session : Session)
    (token : Token) :
    (atRest session).placed.count token =
      session.stowed.count token + session.held.count token := by
  simp only [count_placed, atRest, List.flatMap_nil, List.count_nil,
    Nat.zero_add]
  rfl

theorem count_placed_holding
    (session : Session)
    (reply : Response)
    (tasks : List Task)
    (token : Token) :
    (holding session reply tasks).placed.count token =
      reply.tokens.count token + session.stowed.count token +
        session.held.count token := by
  simp only [count_placed, holding, List.flatMap_cons, List.flatMap_nil,
    List.append_nil]
  rfl

end Machine

/-- Asking a step of the reply in a slot obeys the law of the step. -/
theorem Session.custody_ask
    {session : Session}
    {slot : String}
    {content : Holding}
    (present : session.slots.get? slot = some content)
    (settled : content.reply.Settled)
    (step : Step)
    (token : Token) :
    (session.ask slot content step).2.placed.count token +
        (step.discarded session content.reply).count token =
      (Machine.atRest session).placed.count token +
        (step.made session).count token := by
  have taken := session.count_stowed_emptied present token
  have law :=
    step.custody (session.emptied slot) settled token
  have slots := (step.frame_apply (session.emptied slot) content.reply).1
  have same : (session.emptied slot).held = session.held := rfl
  have made : step.made (session.emptied slot) = step.made session := rfl
  have discarded :
      step.discarded (session.emptied slot) content.reply =
        step.discarded session content.reply :=
    rfl
  rw [same, made, discarded] at law
  rw [Machine.count_placed_atRest]
  simp only [Session.ask]
  split
  · next target moved carried =>
      rw [carried] at law
      simp only [Sequel.tokens] at law
      rw [Machine.placed_note]
      simp only [Machine.count_placed, Session.stowed, Session.replies, slots,
        List.flatMap_cons, List.flatMap_nil, firings_nil, List.count_append,
        List.count_nil, List.append_nil] at taken ⊢
      omega
  · rw [Machine.count_placed_follow _ (List.cons_ne_nil _ _),
      Machine.placed_note, Machine.count_placed_holding]
    simp only [Session.stowed, Session.replies, slots] at taken ⊢
    omega

/-- What an action finds and makes is what it leaves, fires and discards. -/
theorem Action.custody_start
    {session : Session}
    {slot : String}
    {content : Holding}
    (present : session.slots.get? slot = some content)
    (settled : content.reply.Settled)
    (action : Action)
    (token : Token) :
    (action.start session slot content).2.placed.count token +
        (action.discarded session content).count token =
      (Machine.atRest session).placed.count token +
        (action.made session).count token := by
  have taken := session.count_stowed_emptied present token
  have same : (session.emptied slot).held = session.held := rfl
  have rested := Machine.count_placed_atRest session token
  have emptied := Machine.count_placed_atRest (session.emptied slot) token
  cases action with
  | drop =>
      simp only [Action.start, Session.letGo, Action.discarded, Action.made,
        List.count_nil]
      split
      · rw [Machine.count_placed_holding, same, List.count_nil]
        omega
      · rw [emptied, same]
        omega
  | release =>
      simp only [Action.start, Action.discarded, Action.made, List.count_nil]
      split
      · rfl
      · rw [emptied, same]
        omega
  | deliver =>
      simp only [Action.start, Action.discarded, Action.made, List.count_nil]
      split
      · rfl
      · rw [Machine.placed_note, emptied, same]
        omega
  | move target =>
      simp only [Action.start, Action.discarded, Action.made, List.count_nil]
      rw [Machine.count_placed_holding, same]
      omega
  | guard =>
      simp only [Action.start, Action.discarded, Action.made, List.count_nil]
      split
      · rfl
      · rw [Machine.count_placed_holding, same]
        omega
  | unguard =>
      have moved := settled.relocate_eq session.nextId
      have stowed :
          (session.emptied slot).grown.stowed =
            (session.emptied slot).stowed :=
        rfl
      have held : (session.emptied slot).grown.held = session.held := rfl
      simp only [Action.start, Action.discarded, Action.made, List.count_nil]
      split
      · rw [Machine.placed_note, Machine.count_placed_holding, moved, stowed,
          held]
        omega
      · rfl
  | ask step => exact Session.custody_ask present settled step token

theorem Command.custody_start
    {session : Session}
    (settled : ∀ reply ∈ session.replies, reply.Settled)
    (command : Command)
    (token : Token) :
    (command.start session).2.placed.count token +
        (command.discarded session).count token =
      (Machine.atRest session).placed.count token +
        (command.made session).count token := by
  have stowed : session.grown.stowed = session.stowed := rfl
  have held : session.grown.held = session.held := rfl
  cases command with
  | create slot =>
      simp only [Command.start, Command.discarded, Command.made]
      rw [Machine.count_placed_holding, Machine.count_placed_atRest, stowed,
        held, Buffered.tokens_blank, List.count_nil, Nat.zero_add]
  | adopt slot message =>
      have bare :
          (Buffered.ofMessage session.nextId message : Response).tokens =
            [] :=
        rfl
      simp only [Command.start, Command.discarded, Command.made]
      rw [Machine.count_placed_holding, Machine.count_placed_atRest, stowed,
        held, bare, List.count_nil, Nat.zero_add]
  | act slot action =>
      simp only [Command.start, Command.discarded, Command.made]
      cases present : session.slots.get? slot with
      | none => rfl
      | some content =>
          have own : content.reply.Settled :=
            settled _
              (List.mem_map.mpr
                ⟨content, Registry.mem_contents_of_get? present, rfl⟩)
          exact action.custody_start present own token

/-! ## The law for one turn -/

theorem Turn.custody
    {turn : Turn}
    (settled : ∀ reply ∈ turn.before.replies, reply.Settled)
    (token : Token) :
    turn.after.attached.count token + turn.after.session.held.count token +
        (firings turn.events).count token + turn.discarded.count token =
      turn.before.attached.count token +
        turn.before.session.held.count token + turn.made.count token := by
  have law :
      turn.after.placed.count token + turn.discarded.count token =
        turn.before.placed.count token + turn.made.count token := by
    cases turn with
    | order session command => exact command.custody_start settled token
    | work machine task => exact machine.custody_perform settled task token
  simp only [Machine.placed, turn.trace_after, firings_append,
    List.count_append] at law
  omega

/-! ## Serial numbers -/

/-- At most one token is made, with the next serial number. -/
def Numbered (made : List Token) (before after : Nat) : Prop :=
  (made = [] ∧ after = before) ∨
    ∃ token, made = [token] ∧ token.serial = before ∧ after = before + 1

/-- A step makes at most one token, with the next serial number. -/
theorem Step.numbered
    (step : Step)
    (session : Session)
    (reply : Response) :
    Numbered (step.made session) session.nextSerial
      (step.apply session reply).session.nextSerial := by
  cases content : step.isContent with
  | true =>
      obtain ⟨flags, same⟩ := (step.onContent session reply content).session
      obtain ⟨nothing, -⟩ := made_of_content session reply content
      rw [same]
      exact Or.inl ⟨nothing, rfl⟩
  | false =>
      cases step with
      | setHandler | setProbe => exact Or.inr ⟨_, rfl, rfl, rfl⟩
      | clear | finalize | relocate => exact Or.inl ⟨rfl, rfl⟩
      | releaseHandler name =>
          rw [apply, Session.releaseHandler_eq]
          exact Or.inl ⟨rfl, rfl⟩
      | invokeHandler name =>
          rw [apply, Session.invokeHandler_eq]
          exact Or.inl ⟨rfl, rfl⟩
      | attachHandler name =>
          rw [apply, Session.attachHandler_eq]
          exact Or.inl ⟨rfl, rfl⟩
      | releaseProbe name =>
          rw [apply, Session.releaseProbe_eq]
          exact Or.inl ⟨rfl, rfl⟩
      | attachProbe name =>
          rw [apply, Session.attachProbe_eq]
          exact Or.inl ⟨rfl, rfl⟩
      | _ => contradiction

theorem Task.numbered
    (task : Task)
    (machine : Machine) :
    Numbered (task.made machine) machine.session.nextSerial
      (machine.perform task).session.nextSerial := by
  cases task with
  | finalize =>
      refine Or.inl ⟨rfl, ?_⟩
      cases hand : machine.hand with
      | nil => simp only [Machine.perform, Machine.finalize, hand]
      | cons reply below =>
          rw [Machine.perform, (Machine.finalize_keeps hand).1]
  | play handler script =>
      cases script with
      | nil => exact Or.inl ⟨rfl, rfl⟩
      | cons line rest =>
          rcases line with ⟨word, step⟩
          simp only [Task.made, Machine.perform, Machine.play]
          cases hand : machine.hand with
          | nil => exact Or.inl ⟨rfl, rfl⟩
          | cons reply below =>
              simp only [List.isEmpty_cons, Bool.false_eq_true, if_false]
              rw [(Machine.follow_keeps _ _).1]
              exact step.numbered machine.session reply
  | report handler word answer => exact Or.inl ⟨rfl, rfl⟩
  | shelve slot guarded =>
      refine Or.inl ⟨rfl, ?_⟩
      simp only [Machine.perform, Machine.shelve]
      split
      · rfl
      · split <;> rfl
  | discard => exact Or.inl ⟨rfl, rfl⟩

theorem Command.numbered
    (command : Command)
    (session : Session) :
    Numbered (command.made session) session.nextSerial
      (command.start session).2.session.nextSerial := by
  cases command with
  | create slot => exact Or.inl ⟨rfl, rfl⟩
  | adopt slot message => exact Or.inl ⟨rfl, rfl⟩
  | act slot action =>
      simp only [Command.start, Command.made]
      cases present : session.slots.get? slot with
      | none => exact Or.inl ⟨rfl, rfl⟩
      | some content =>
          cases action with
          | drop =>
              refine Or.inl ⟨rfl, ?_⟩
              simp only [Action.start, Session.letGo]
              split <;> rfl
          | move target => exact Or.inl ⟨rfl, rfl⟩
          | guard | unguard | release | deliver =>
              refine Or.inl ⟨rfl, ?_⟩
              simp only [Action.start]
              split <;> rfl
          | ask step =>
              simp only [Option.isSome_some, if_true, Action.made,
                Action.start, Session.session_ask]
              exact step.numbered (session.emptied slot) content.reply

theorem Turn.numbered (turn : Turn) :
    Numbered turn.made turn.before.session.nextSerial
      turn.after.session.nextSerial := by
  cases turn with
  | order session command => exact command.numbered session
  | work machine task => exact task.numbered machine

/-- Tokens made later have other serial numbers than those made before. -/
theorem Numbered.nodup_append
    {former made : List Token}
    {before after : Nat}
    (numbered : Numbered made before after)
    (single : former.Nodup)
    (below : ∀ token ∈ former, token.serial < before) :
    (former ++ made).Nodup ∧
      ∀ token ∈ former ++ made, token.serial < after := by
  rcases numbered with ⟨nothing, same⟩ | ⟨token, one, serial, next⟩
  · rw [nothing, same, List.append_nil]
    exact ⟨single, below⟩
  · rw [one, next]
    constructor
    · refine List.nodup_append.mpr ⟨single, List.nodup_singleton token, ?_⟩
      intro former inFormer other inMade same
      have smaller := below former inFormer
      rw [same, List.mem_singleton.mp inMade, serial] at smaller
      exact Nat.lt_irrefl _ smaller
    · intro other member
      rcases List.mem_append.mp member with inFormer | inMade
      · exact Nat.lt_succ_of_lt (below other inFormer)
      · rw [List.mem_singleton.mp inMade, serial]
        exact Nat.lt_succ_self _

/-! ## The law for whole runs -/

namespace Run

/-- In every run no two tokens that were made are the same. -/
theorem nodup_made
    {turns : List Turn}
    {machine : Machine}
    (run : Run turns machine) :
    (turns.flatMap Turn.made).Nodup ∧
      ∀ token ∈ turns.flatMap Turn.made,
        token.serial < machine.session.nextSerial := by
  induction run with
  | start => exact ⟨List.nodup_nil, by simp⟩
  | @order turns machine run rested command inductionHypothesis =>
      rw [List.flatMap_append, List.flatMap_singleton]
      exact
        (Turn.numbered (.order machine.session command)).nodup_append
          inductionHypothesis.1 inductionHypothesis.2
  | @work turns machine run task later planned inductionHypothesis =>
      rw [List.flatMap_append, List.flatMap_singleton]
      exact
        (Turn.numbered (.work { machine with tasks := later } task)).nodup_append
          inductionHypothesis.1 inductionHypothesis.2

/-- The places where a token is at a boundary of a run, one for each. -/
def places (turns : List Turn) (machine : Machine) : List Token :=
  machine.attached ++ machine.session.held ++ firings (eventsOf turns) ++
    turns.flatMap Turn.discarded

/-- One more turn moves tokens from the places before it to those after it. -/
theorem places_append
    {turns : List Turn}
    {machine : Machine}
    (turn : Turn)
    (attached : turn.before.attached = machine.attached)
    (session : turn.before.session = machine.session)
    (settled : ∀ reply ∈ turn.before.replies, reply.Settled)
    (former : (places turns machine).Perm (turns.flatMap Turn.made)) :
    (places (turns ++ [turn]) turn.after).Perm
      ((turns ++ [turn]).flatMap Turn.made) := by
  apply List.perm_iff_count.mpr
  intro token
  have law := turn.custody settled token
  have before := former.count_eq token
  rw [attached, session] at law
  simp only [places, eventsOf, List.flatMap_append, List.flatMap_singleton,
    firings_append, List.count_append] at before ⊢
  omega

/-- In every run each token that was made is in exactly one place. -/
theorem perm_places
    {turns : List Turn}
    {machine : Machine}
    (run : Run turns machine) :
    (places turns machine).Perm (turns.flatMap Turn.made) := by
  induction run with
  | start => exact List.Perm.refl _
  | @order turns machine run rested command inductionHypothesis =>
      have attached :
          (Turn.order machine.session command).before.attached =
            machine.attached := by
        simp only [Turn.before, Machine.attached, Machine.replies,
          Machine.atRest, run.hand_eq_nil rested]
      have settled :
          ∀ reply ∈ (Turn.order machine.session command).before.replies,
            reply.Settled := by
        intro reply member
        exact run.settled reply (List.mem_append_right _ member)
      exact
        places_append (.order machine.session command) attached rfl settled
          inductionHypothesis
  | @work turns machine run task later planned inductionHypothesis =>
      exact
        places_append (.work { machine with tasks := later } task) rfl rfl
          run.settled inductionHypothesis

/-- In every run no handler fires twice. -/
theorem nodup_firings
    {turns : List Turn}
    {machine : Machine}
    (run : Run turns machine) :
    (firings (eventsOf turns)).Nodup := by
  have single := run.perm_places.nodup_iff.mpr run.nodup_made.1
  have present := (List.nodup_append.mp single).1
  exact (List.nodup_append.mp present).2.1

end Run

end Reply
