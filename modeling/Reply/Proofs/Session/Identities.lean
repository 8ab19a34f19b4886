import Reply.Proofs.Session.Descent
import Reply.Proofs.Session.Settled
import Reply.Proofs.Session.Carrying
import Reply.Proofs.Session.StreamedCustody

namespace Reply

/-!
# Identities

Every reply gets the next number of one counter when it is made.  New replies and
adopted messages get one, and so does the blank reply that stays behind when a reply
is moved out or unwrapped, even if it is dropped at once.  No other turn touches the
counter, so an identity names one reply for a whole run and goes where its content
goes.
-/

/-- The identities that turns give out, in order. -/
def identitiesGiven (turns : List Turn) : List Nat :=
  (turns.map Turn.deed).flatMap Deed.born

/-- The 64-bit word that stands for an identity: counting starts at one and wraps. -/
def identityWord (id : Nat) : UInt64 :=
  .ofNat (id + 1)

/-- As long as the counter did not wrap, words tell identities apart. -/
theorem identityWord_inj
    {first second : Nat}
    (firstFits : first + 1 < 2 ^ 64)
    (secondFits : second + 1 < 2 ^ 64)
    (same : identityWord first = identityWord second) :
    first = second := by
  have numbers := congrArg UInt64.toNat same
  rw [identityWord, identityWord, UInt64.toNat_ofNat_of_lt' firstFits,
    UInt64.toNat_ofNat_of_lt' secondFits] at numbers
  exact Nat.succ.inj numbers

/-- Different identities below the wrap have different words. -/
theorem nodup_map_identityWord
    {ids : List Nat}
    (single : ids.Nodup)
    (fits : ∀ id ∈ ids, id + 1 < 2 ^ 64) :
    (ids.map identityWord).Nodup := by
  refine single.map_on ?_
  intro first inIds second alsoInIds same
  exact identityWord_inj (fits first inIds) (fits second alsoInIds) same

theorem identitiesGiven_append (former later : List Turn) :
    identitiesGiven (former ++ later) =
      identitiesGiven former ++ identitiesGiven later := by
  simp only [identitiesGiven, List.map_append, List.flatMap_append]

/-! ## One turn -/

/-- Identities that a turn takes up or gives out are left or gone afterwards. -/
theorem Turn.count_ids
    (turn : Turn)
    (id : Nat) :
    (turn.after.replies.map Buffered.id).count id +
        (turn.deed.gone.map Buffered.id).count id =
      (turn.before.replies.map Buffered.id).count id +
        turn.deed.born.count id := by
  have flow := turn.flow fun reply => [reply.id].count id
  have ids := turn.deed.count_ids id
  simp only [sumOf_count_singleton] at flow
  omega

/-- Every reply that a deed yields has the identity of one it took up, or a new one. -/
theorem Deed.id_of_yielded
    {deed : Deed}
    {reply : Response}
    (yielded : reply ∈ deed.yielded) :
    (∃ taken ∈ deed.used, taken.id = reply.id) ∨ reply.id ∈ deed.born := by
  have present : 0 < (deed.yielded.map Buffered.id).count reply.id :=
    List.count_pos_iff.mpr (List.mem_map_of_mem yielded)
  have counted := deed.count_ids reply.id
  have either :
      0 < (deed.used.map Buffered.id).count reply.id ∨
        0 < deed.born.count reply.id := by
    omega
  rcases either with taken | given
  · exact Or.inl (List.mem_map.mp (List.count_pos_iff.mp taken))
  · exact Or.inr (List.count_pos_iff.mp given)

/-- A reply that a deed lets go for good was in hand or is new and dropped at once. -/
theorem Deed.destroyed_or_born
    {deed : Deed}
    {reply : Response}
    (gone : reply ∈ deed.gone) :
    deed = .destroyed reply ∨ reply.id ∈ deed.born := by
  cases deed with
  | idle | made | stepped | finalized | letGo => contradiction
  | unwrapped fresh unwrapped =>
      rw [List.mem_singleton.mp gone]
      exact Or.inr (List.mem_singleton.mpr rfl)
  | destroyed lost =>
      rw [List.mem_singleton.mp gone]
      exact Or.inl rfl

/-- A reply that lives after a turn lived before it or is yielded by its deed. -/
theorem Turn.mem_replies_after
    (turn : Turn)
    {reply : Response}
    (living : reply ∈ turn.after.replies) :
    reply ∈ turn.before.replies ∨ reply ∈ turn.deed.yielded := by
  have either :
      ∀ left ∈ turn.after.replies,
        left ∈ turn.before.replies ∨ left ∈ turn.deed.yielded :=
    turn.forall_after (fun _ => Or.inl) (fun _ => Or.inr)
  exact either reply living

/-- A relocation does not act in place. -/
theorem Step.InPlace.ne_relocate
    {step : Step}
    {session : Session}
    {reply : Response}
    (stays : step.InPlace session reply)
    (slot : String) :
    step ≠ .relocate slot := by
  rintro rfl
  exact List.cons_ne_nil _ _ stays.carried

/-- What a turn makes of one reply that it does not move: a step's or a finalize's. -/
inductive Deed.Alters : Deed → Response → Response → Prop
  | stepped
      (session : Session)
      (reply : Response)
      {step : Step}
      (inPlace : ∀ slot, step ≠ .relocate slot) :
      Alters (.stepped session reply step) reply
        (step.apply session reply).reply
  | finalized (reply : Response) :
      Alters (.finalized reply) reply reply.finalize.value.1

/--
A deed that yields a reply under an identity that it took up yields the same reply or
altered it.
-/
theorem Deed.same_or_alters
    {deed : Deed}
    {before after : Response}
    (settled : before.Settled)
    (taken : before ∈ deed.used)
    (yielded : after ∈ deed.yielded)
    (notNew : after.id ∉ deed.born) :
    after = before ∨ deed.Alters before after := by
  cases deed with
  | idle | made | letGo | destroyed => simp [used, Deed.yielded] at taken yielded
  | finalized reply =>
      obtain rfl := List.mem_singleton.mp taken
      obtain rfl := List.mem_singleton.mp yielded
      exact Or.inr (.finalized before)
  | unwrapped fresh reply =>
      obtain rfl := List.mem_singleton.mp taken
      obtain rfl := List.mem_singleton.mp yielded
      exact Or.inl (settled.relocate_eq fresh)
  | stepped session reply step =>
      obtain rfl := List.mem_singleton.mp taken
      rcases step.relocates_or_inPlace session before with ⟨slot, rfl⟩ | stays
      · rcases List.mem_cons.mp yielded with rfl | moved
        · exact absurd (List.mem_singleton.mpr rfl) notNew
        · rw [List.mem_singleton.mp moved]
          exact Or.inl (settled.relocate_eq session.nextId)
      · rw [Deed.yielded, Effect.replies, stays.carried,
          List.mem_singleton] at yielded
        subst yielded
        exact Or.inr (.stepped session before stays.ne_relocate)

/-! ## Whole runs -/

/-- How a turn treats identities, after the turns before it. -/
structure Turn.KeepsIdentities (former : List Turn) (turn : Turn) : Prop where
  /-- Whatever has the identity of a reply is that reply, as it was or altered. -/
  same :
    ∀ before ∈ turn.before.replies, ∀ after ∈ turn.after.replies,
      after.id = before.id → after = before ∨ turn.deed.Alters before after
  /-- A reply lives on under its identity unless the turn destroys it. -/
  kept :
    ∀ before ∈ turn.before.replies,
      turn.deed = .destroyed before ∨
        ∃ after ∈ turn.after.replies, after.id = before.id
  /-- A reply whose identity did not live before has one given out by the turn. -/
  fresh :
    ∀ after ∈ turn.after.replies,
      (∃ before ∈ turn.before.replies, before.id = after.id) ∨
        after.id ∈ turn.deed.born
  /-- What the turn gives out was not given out before. -/
  unused : ∀ id ∈ turn.deed.born, id ∉ identitiesGiven former

namespace Run

variable {turns former later : List Turn} {machine prior : Machine}

/-- The counter says how many identities were given out. -/
theorem length_identitiesGiven (run : Run turns machine) :
    (identitiesGiven turns).length = machine.session.nextId := by
  rw [identitiesGiven, run.born_eq_range, List.length_range]

/-- No identity is given out twice. -/
theorem nodup_identitiesGiven (run : Run turns machine) :
    (identitiesGiven turns).Nodup := by
  rw [identitiesGiven, run.born_eq_range]
  exact List.nodup_range

theorem mem_identitiesGiven_iff
    (run : Run turns machine)
    {id : Nat} :
    id ∈ identitiesGiven turns ↔ id < machine.session.nextId := by
  rw [identitiesGiven, run.born_eq_range, List.mem_range]

/-- Every live reply has an identity that was given out. -/
theorem id_mem_identitiesGiven
    (run : Run turns machine) :
    ∀ reply ∈ machine.replies, reply.id ∈ identitiesGiven turns := by
  intro reply living
  exact run.mem_identitiesGiven_iff.mpr (lasting_id_lt.run run reply living)

/-- No two live replies have the same identity. -/
theorem nodup_live_ids (run : Run turns machine) :
    (machine.replies.map Buffered.id).Nodup :=
  (List.nodup_append.mp run.nodup_ids).1

/-- Words tell apart what was given out, unless the counter wrapped. -/
theorem nodup_words
    (run : Run turns machine)
    (few : (identitiesGiven turns).length < 2 ^ 64)
    {ids : List Nat}
    (given : ids ⊆ identitiesGiven turns)
    (single : ids.Nodup) :
    (ids.map identityWord).Nodup := by
  rw [run.length_identitiesGiven] at few
  refine nodup_map_identityWord single ?_
  intro id member
  have bound := run.mem_identitiesGiven_iff.mp (given member)
  omega

/-- The turn after a run treats identities as it should. -/
theorem keepsIdentities
    (run : Run former prior)
    {turn : Turn}
    (follows : turn.Follows prior) :
    turn.KeepsIdentities former := by
  have living := run.replies_before follows
  have unused : ∀ id ∈ turn.deed.born, id ∉ identitiesGiven former := by
    intro id given before
    have once := turn.range_nextId ▸ List.nodup_range
    rw [follows.session_before, ← run.born_eq_range] at once
    exact List.disjoint_of_nodup_append once before given
  have notNew : ∀ before ∈ turn.before.replies, before.id ∉ turn.deed.born := by
    intro before wasLiving given
    rw [living] at wasLiving
    exact unused _ given (run.id_mem_identitiesGiven before wasLiving)
  have single :
      ∀ before ∈ turn.before.replies, ∀ other ∈ turn.before.replies,
        other.id = before.id → other = before := by
    rw [living]
    intro before wasLiving other alsoLiving same
    exact
      List.inj_on_of_nodup_map run.nodup_live_ids alsoLiving wasLiving same
  refine ⟨?same, ?kept, ?fresh, unused⟩
  case same =>
    intro before wasLiving after isLiving same
    rcases turn.mem_replies_after isLiving with stayed | yielded
    · exact Or.inl (single before wasLiving after stayed same)
    · have noNew : after.id ∉ turn.deed.born := same ▸ notNew before wasLiving
      rcases Deed.id_of_yielded yielded with ⟨taken, used, named⟩ | given
      · obtain rfl :=
          single before wasLiving taken (turn.used_subset used)
            (named.trans same)
        have settled := run.settled taken (living ▸ wasLiving)
        exact Deed.same_or_alters settled used yielded noNew
      · exact absurd given noNew
  case kept =>
    intro before wasLiving
    have counted := turn.count_ids before.id
    have present : 0 < (turn.before.replies.map Buffered.id).count before.id :=
      List.count_pos_iff.mpr (List.mem_map_of_mem wasLiving)
    have either :
        0 < (turn.deed.gone.map Buffered.id).count before.id ∨
          0 < (turn.after.replies.map Buffered.id).count before.id := by
      omega
    rcases either with gone | left
    · obtain ⟨lost, inGone, named⟩ :=
        List.mem_map.mp (List.count_pos_iff.mp gone)
      rcases Deed.destroyed_or_born inGone with destroyed | given
      · have used : lost ∈ turn.deed.used := by
          rw [destroyed]
          exact List.mem_singleton.mpr rfl
        obtain rfl :=
          single before wasLiving lost (turn.used_subset used) named
        exact Or.inl destroyed
      · exact absurd (named ▸ given) (notNew before wasLiving)
    · exact Or.inr (List.mem_map.mp (List.count_pos_iff.mp left))
  case fresh =>
    intro after isLiving
    rcases turn.mem_replies_after isLiving with stayed | yielded
    · exact Or.inl ⟨after, stayed, rfl⟩
    · rcases Deed.id_of_yielded yielded with ⟨taken, used, named⟩ | given
      · exact Or.inl ⟨taken, turn.used_subset used, named⟩
      · exact Or.inr given

/-- An identity that was given out and lives now has lived ever since. -/
theorem exists_bearer
    (run : Run (former ++ later) machine)
    (earlier : Run former prior) :
    ∀ reply ∈ machine.replies, reply.id ∈ identitiesGiven former →
      ∃ bearer ∈ prior.replies, bearer.id = reply.id := by
  induction later using List.reverseRecOn generalizing machine with
  | nil =>
      rw [List.append_nil] at run
      rw [earlier.unique run]
      intro reply living _
      exact ⟨reply, living, rfl⟩
  | append_singleton later last inductionHypothesis =>
      rw [← List.append_assoc] at run
      obtain ⟨middle, begun, follows, rfl⟩ := run.exists_of_snoc
      have law := begun.keepsIdentities follows
      intro reply living given
      rcases law.fresh reply living with ⟨before, wasLiving, same⟩ | new
      · rw [begun.replies_before follows] at wasLiving
        rw [← same] at given ⊢
        exact inductionHypothesis begun before wasLiving given
      · have unused := law.unused _ new
        rw [identitiesGiven_append] at unused
        exact absurd (List.mem_append_left _ given) unused

end Run

/-! ## Replies that move -/

/-- What a slot holds after the next task. -/
def Machine.nextIn (machine : Machine) (slot : String) : Option Holding :=
  machine.step?.bind fun next => next.session.slots.get? slot

/-- Shelving puts the reply on top into the slot as it is. -/
theorem Machine.nextIn_of_shelve
    {machine : Machine}
    {slot : String}
    {guarded : Bool}
    {later : List Task}
    {reply : Response}
    {below : List Response}
    (planned : machine.tasks = .shelve slot guarded :: later)
    (hand : machine.hand = reply :: below) :
    machine.nextIn slot = some ⟨reply, guarded⟩ := by
  have stored :
      ({ machine with tasks := later }.shelve slot guarded).session.slots =
        machine.session.slots.put slot ⟨reply, guarded⟩ := by
    simp only [shelve, hand]
    split <;> rfl
  rw [nextIn, step?_of_cons planned, Option.bind_some, perform, stored,
    Registry.get?_put, if_pos rfl]

/-- Where replies go that leave their place, each with all that it has. -/
structure Machine.MovesWhole (machine : Machine) : Prop where
  moved :
    ∀ slot target content, machine.session.slots.get? slot = some content →
      ((Command.act slot (.move target)).start machine.session).2.nextIn
          target =
        some content
  guarded :
    ∀ slot reply, machine.session.slots.get? slot = some ⟨reply, false⟩ →
      ((Command.act slot .guard).start machine.session).2.nextIn slot =
        some ⟨reply, true⟩
  unguarded :
    ∀ slot reply, machine.session.slots.get? slot = some ⟨reply, true⟩ →
      ((Command.act slot .unguard).start machine.session).2.nextIn slot =
        some ⟨reply, false⟩
  /-- A command takes: a blank reply with the next identity goes back first. -/
  taken :
    ∀ slot target reply guarded,
      machine.session.slots.get? slot = some ⟨reply, guarded⟩ →
        ∃ next,
          ((Command.act slot (.ask (.relocate target))).start
              machine.session).2.step? = some next ∧
            next.session.slots.get? slot =
              some ⟨.blank machine.session.nextId, guarded⟩ ∧
            next.nextIn target = some ⟨reply, false⟩
  /-- A script takes: a blank reply with the next identity stays in hand. -/
  played :
    ∀ handler word target rest later reply below,
      machine.tasks = .play handler ((word, .relocate target) :: rest) :: later →
        machine.hand = reply :: below →
          ∃ next,
            machine.step? = some next ∧
              next.hand =
                reply :: .blank machine.session.nextId :: below ∧
              next.nextIn target = some ⟨reply, false⟩

/-- In every run replies that leave their place move whole. -/
theorem Run.movesWhole
    {turns : List Turn}
    {machine : Machine}
    (run : Run turns machine) :
    machine.MovesWhole := by
  have inSlot :
      ∀ {slot : String} {reply : Response} {guarded : Bool},
        machine.session.slots.get? slot = some ⟨reply, guarded⟩ →
          reply.Settled :=
    fun present => run.settled _ (machine.mem_replies_of_slot present)
  refine ⟨?moved, ?guarded, ?unguarded, ?taken, ?played⟩
  case moved =>
    intro slot target content present
    simp only [Command.start, present, Action.start]
    exact Machine.nextIn_of_shelve rfl rfl
  case guarded =>
    intro slot reply present
    simp only [Command.start, present, Action.start]
    exact Machine.nextIn_of_shelve rfl rfl
  case unguarded =>
    intro slot reply present
    simp only [Command.start, present, Action.start,
      (inSlot present).relocate_eq]
    exact Machine.nextIn_of_shelve rfl rfl
  case taken =>
    intro slot target reply guarded present
    have free : (machine.session.slots.erase slot).get? slot = none := by
      rw [Registry.get?_erase, if_pos rfl]
    simp only [Command.start, present, Action.start, Session.ask, Step.apply,
      Session.relocate, (inSlot present).relocate_eq]
    refine ⟨_, Machine.step?_of_cons rfl, ?_⟩
    rw [Machine.perform, Machine.shelve_of_free rfl free]
    refine ⟨?_, Machine.nextIn_of_shelve rfl rfl⟩
    exact (Registry.get?_put ..).trans (if_pos rfl)
  case played =>
    intro handler word target rest later reply below planned hand
    have settled := run.settled reply (machine.mem_replies_of_hand hand)
    refine ⟨_, Machine.step?_of_cons planned, ?_⟩
    simp only [Machine.perform, Machine.play, hand, Step.apply,
      Session.relocate, settled.relocate_eq]
    exact ⟨rfl, Machine.nextIn_of_shelve rfl rfl⟩

/-! ## Streamed replies -/

namespace Streaming

/-- A session whose reply goes by another identity. -/
def Session.reborn (session : Session) (fresh : Nat) : Session :=
  { session with
    born := fresh
    reply := { session.reply with id := fresh } }

/-- An outcome whose session goes by another identity. -/
def Outcome.reborn (outcome : Outcome) (fresh : Nat) : Outcome :=
  { outcome with session := outcome.session.reborn fresh }

namespace Session

/-- Under another identity a step does the same. -/
theorem perform_reborn
    {session : Session}
    (own : session.reply.id = session.born)
    (fresh : Nat)
    (step : Step) :
    (session.reborn fresh).perform step =
      (session.perform step).reborn fresh := by
  cases step with
  | setField name octets =>
      simp only [perform, Streamed.setField, reborn]
      cases session.reply.message.setField name octets <;> rfl
  | setStatus code =>
      simp only [perform, Streamed.setStatus, reborn]
      cases session.reply.message.setStatus code <;> rfl
  | write octets =>
      simp only [perform, Streamed.write, reborn, Streamed.body]
      cases session.reply.message.body.write octets <;> rfl
  | writeBody octets =>
      simp only [perform, reborn, Streamed.body]
      cases session.reply.message.body.write octets <;> rfl
  | frame =>
      simp only [perform, reborn]
      split <;> rfl
  | finalize =>
      simp only [perform, reborn]
      unfold finalize Streamed.finalize
      split
      · rfl
      · cases session.reply.handler <;> rfl
  | readSameId =>
      simp only [perform, reborn, own]
      rfl
  | releaseHandler name =>
      simp only [perform, releaseHandler, reborn, Streamed.detach]
      split <;> rfl
  | invokeHandler name =>
      simp only [perform, invokeHandler, reborn]
      split <;> rfl
  | attachHandler name =>
      simp only [perform, attachHandler, reborn]
      split <;> rfl
  | releaseProbe name =>
      simp only [perform, releaseProbe, reborn]
      split <;> rfl
  | attachProbe name =>
      simp only [perform, attachProbe, reborn]
      split <;> rfl
  | _ => rfl

/-- Under its own identity a session is what it is. -/
theorem reborn_self
    {session : Session}
    (own : session.reply.id = session.born) :
    session.reborn session.born = session := by
  rcases session with ⟨born, reply, handlers, probes, flags, nextSerial⟩
  obtain rfl : reply.id = born := own
  rfl

/-- No step changes the identity, which the session remembers. -/
theorem id_perform
    {session : Session}
    (own : session.reply.id = session.born)
    (step : Step) :
    (session.perform step).session.reply.id = session.born ∧
      (session.perform step).session.born = session.born := by
  -- Under the identity that the session has already, an outcome is its own image.
  have same := perform_reborn own session.born step
  rw [reborn_self own] at same
  rw [same]
  exact ⟨rfl, rfl⟩

end Session

/-- In every run the reply has the identity that it was made with. -/
theorem Run.id_eq
    {capacity : Nat}
    {turns : List Turn}
    {session : Session}
    (run : Run capacity turns session) :
    session.reply.id = session.born ∧
      session.born = (Session.ofCapacity capacity).reply.id := by
  induction run with
  | start => exact ⟨rfl, rfl⟩
  | step run step inductionHypothesis =>
      obtain ⟨own, first⟩ := inductionHypothesis
      obtain ⟨kept, born⟩ := Session.id_perform own step
      exact ⟨kept.trans born.symm, born.trans first⟩

end Streaming

/-! ## The law -/

/--
As long as fewer than 2 ^ 64 identities were given out, no two live replies have the
same one, and none is given out twice.  A turn leaves each reply the identity that it
has, altered or not, and gives new ones to new replies only; an identity that no live
reply has does not come back; replies that are taken, moved, guarded or unwrapped
go whole, and the blank one that a taken reply leaves has an identity never given out
before.  A streamed reply keeps the identity that it was made with.
-/
theorem identities_unique :
    (∀ turns machine,
      Run turns machine →
        (identitiesGiven turns).length < 2 ^ 64 →
          (machine.replies.map fun reply => identityWord reply.id).Nodup ∧
            ((identitiesGiven turns).map identityWord).Nodup ∧
            (∀ reply ∈ machine.replies, reply.id ∈ identitiesGiven turns) ∧
            (∀ former turn later,
              turns = former ++ turn :: later →
                turn.KeepsIdentities former) ∧
            (∀ former later prior,
              turns = former ++ later →
                Run former prior →
                  ∀ reply ∈ machine.replies,
                    reply.id ∈ identitiesGiven former →
                      ∃ bearer ∈ prior.replies, bearer.id = reply.id) ∧
            machine.MovesWhole ∧
            machine.session.nextId ∉ identitiesGiven turns) ∧
      ∀ capacity turns session,
        Streaming.Run capacity turns session →
          session.reply.id = session.born ∧
            session.born =
              (Streaming.Session.ofCapacity capacity).reply.id := by
  refine ⟨?buffered, fun capacity turns session run => run.id_eq⟩
  intro turns machine run few
  refine ⟨?live, ?given, run.id_mem_identitiesGiven, ?turn, ?bearer,
    run.movesWhole, ?next⟩
  case live =>
    have given : machine.replies.map Buffered.id ⊆ identitiesGiven turns := by
      intro id member
      obtain ⟨reply, living, rfl⟩ := List.mem_map.mp member
      exact run.id_mem_identitiesGiven reply living
    have words := run.nodup_words few given run.nodup_live_ids
    rwa [List.map_map] at words
  case given =>
    exact run.nodup_words few (List.Subset.refl _) run.nodup_identitiesGiven
  case turn =>
    rintro former turn later rfl
    obtain ⟨prior, begun, follows, -⟩ := run.exists_of_append
    exact begun.keepsIdentities follows
  case bearer =>
    rintro former later prior rfl begun
    exact run.exists_bearer begun
  case next =>
    rw [run.mem_identitiesGiven_iff]
    exact Nat.lt_irrefl _

/--
The handler of a guarded reply takes it out of the guard, the blank reply that stays
is unwrapped, and a third reply is made: of four identities three live.  A streamed
reply that is written to, finalized and cleared is the one that was made.
-/
theorem identities_unique_taken_by_handler :
    (∃ turns machine,
      Run turns machine ∧
        identitiesGiven turns = [0, 1, 2, 3] ∧
        (machine.replies.map fun reply => reply.id) = [0, 1, 3] ∧
        (machine.replies.map fun reply => identityWord reply.id).Nodup ∧
        machine.MovesWhole) ∧
      ∃ turns session,
        Streaming.Run 8 turns session ∧
          turns.length = 3 ∧
          session.reply.id = session.born := by
  constructor
  · have stored := (Run.start.order rfl (.create "a")).work rfl
    have armed :=
      (stored.order rfl
        (.act "a"
          (.ask (.setHandler "h" [("take", .relocate "b")])))).work rfl
    have guarded := (armed.order rfl (.act "a" .guard)).work rfl
    have fired := (guarded.order rfl (.act "a" (.ask .finalize))).work rfl
    have taken := ((fired.work rfl).work rfl).work rfl
    have back := (taken.work rfl).work rfl
    have unwrapped := (back.order rfl (.act "a" .unguard)).work rfl
    have last := (unwrapped.order rfl (.create "c")).work rfl
    obtain ⟨live, -, -, -, -, whole, -⟩ :=
      identities_unique.1 _ _ last (by decide +kernel)
    exact ⟨_, _, last, rfl, rfl, live, whole⟩
  · have written := (show Streaming.Run 8 [] _ from .start).step (.write [0x61])
    have cleared := (written.step .finalize).step .clear
    exact ⟨_, _, cleared, rfl, (identities_unique.2 8 _ _ cleared).1⟩

end Reply
