import Reply.Proofs.Session.Calls
import Reply.Proofs.Session.Conservation
import Reply.Proofs.Session.Descent
import Reply.Proofs.Session.Relocation

namespace Reply

/-!
# Guarded replies

A guarded reply that is let go is finalized next, whatever else is planned.  A reply
that is pending with a handler stays so until the handler fires on it, unless the two
are parted: the handler released or replaced, or the reply taken out.  Together with
the law that a handler fires at most once, a guard fires it exactly once.
-/

/-! ## Pending with a handler -/

/-- A pending reply with a handler attached. -/
structure Buffered.Armed (reply : Response) (handler : Handler) : Prop where
  pending : reply.completed = false
  attached : reply.handler = some handler

/-- A deed that parts a reply and its handler, or takes the reply out. -/
inductive Deed.Parts (id : Nat) (handler : Handler) : Deed → Prop
  | replaced
      {session : Session}
      {reply : Response}
      (same : reply.id = id)
      (attached : reply.handler = some handler)
      (name : String)
      (script : Script) :
      Parts id handler (.stepped session reply (.setHandler name script))
  | exchanged
      {session : Session}
      {reply : Response}
      (same : reply.id = id)
      (attached : reply.handler = some handler)
      {name : String}
      {other : Handler}
      (found : session.handlers.get? name = some other) :
      Parts id handler (.stepped session reply (.attachHandler name))
  | released
      {session : Session}
      {reply : Response}
      (same : reply.id = id)
      (attached : reply.handler = some handler)
      (name : String) :
      Parts id handler (.stepped session reply (.releaseHandler name))
  | taken
      {session : Session}
      {reply : Response}
      (same : reply.id = id)
      (slot : String) :
      Parts id handler (.stepped session reply (.relocate slot))
  | unwrapped
      {reply : Response}
      (same : reply.id = id)
      (fresh : Nat) :
      Parts id handler (.unwrapped fresh reply)

/-- A handler fires in a trace, on the reply with an identity. -/
def FiresOn (handler : Handler) (id : Nat) (trace : List Event) : Prop :=
  ∃ reply alive,
    .fired handler.serial handler.name reply alive ∈ trace ∧ reply.id = id

/-- Of all live replies, the one with an identity is pending with a handler. -/
def Machine.Arms (id : Nat) (handler : Handler) (machine : Machine) : Prop :=
  ∀ reply ∈ machine.replies, reply.id = id → reply.Armed handler

/-! ## One step -/

/-- A step that parts nothing leaves an armed reply armed. -/
theorem Step.armed_reply
    (step : Step)
    (session : Session)
    {reply : Response}
    {handler : Handler}
    (armed : reply.Armed handler)
    (intact : ¬(Deed.stepped session reply step).Parts reply.id handler) :
    (step.apply session reply).reply.Armed handler := by
  cases content : step.isContent with
  | true =>
      have kept := (step.onContent session reply content).kept
      exact
        ⟨kept.completed.trans armed.pending, kept.handler.trans armed.attached⟩
  | false =>
      cases step with
      | clear => exact ⟨rfl, armed.attached⟩
      | finalize => exact armed
      | setHandler name script =>
          exact absurd (.replaced rfl armed.attached name script) intact
      | releaseHandler name =>
          exact absurd (.released rfl armed.attached name) intact
      | invokeHandler name =>
          rw [apply, Session.invokeHandler_eq]
          exact armed
      | attachHandler name =>
          simp only [apply, Session.attachHandler]
          split
          · next other found =>
              exact absurd (.exchanged rfl armed.attached found) intact
          · exact armed
      | setProbe flag => exact ⟨armed.pending, armed.attached⟩
      | releaseProbe name =>
          rw [apply, Session.releaseProbe_eq]
          exact ⟨armed.pending, armed.attached⟩
      | attachProbe name =>
          rw [apply, Session.attachProbe_eq]
          exact ⟨armed.pending, armed.attached⟩
      | relocate slot => exact absurd (.taken rfl slot) intact
      | _ => contradiction

/-- Identities that a turn gives out were not out before. -/
theorem Turn.nextId_le_of_born
    {turn : Turn}
    {id : Nat}
    (born : id ∈ turn.deed.born) :
    turn.before.session.nextId ≤ id := by
  have single : (List.range turn.after.session.nextId).Nodup :=
    List.nodup_range
  rw [turn.range_nextId] at single
  have apart := (List.nodup_append.mp single).2.2
  by_contra old
  exact apart id (List.mem_range.mpr (Nat.lt_of_not_le old)) id born rfl

/-- Only finalizing the reply on top is a finalizing deed. -/
theorem Turn.eq_of_finalized
    {turn : Turn}
    {reply : Response}
    (done : turn.deed = .finalized reply) :
    ∃ machine below,
      turn = .work machine .finalize ∧ machine.hand = reply :: below := by
  have does := turn.does
  rw [done] at does
  cases does with
  | finalized hand => exact ⟨_, _, rfl, hand⟩

/-- Finalizing an armed reply fires its handler on it. -/
theorem Turn.firesOn_finalize
    {machine : Machine}
    {reply : Response}
    {below : List Response}
    {handler : Handler}
    (hand : machine.hand = reply :: below)
    (armed : reply.Armed handler) :
    FiresOn handler reply.id (Turn.work machine .finalize).events := by
  have finished :
      reply.finalize.value =
        ({ reply.tagged with completed := true, handler := none },
          some handler) := by
    rw [Buffered.finalize_value, armed.pending, armed.attached]
    rfl
  rw [events_finalize hand, finished]
  refine
    ⟨_, _, List.mem_append_right _ (List.mem_singleton.mpr rfl),
      (Buffered.Kept.tagged reply).id⟩

/--
What a deed yields is armed if what it takes up is, unless it parts the two or
finalizes the reply.
-/
theorem Deed.armed_yielded
    {deed : Deed}
    {id : Nat}
    {handler : Handler}
    (inUse : ∀ reply ∈ deed.used, reply.id = id → reply.Armed handler)
    (old : id ∉ deed.born)
    (intact : ¬deed.Parts id handler)
    (other : ∀ reply, deed = .finalized reply → reply.id ≠ id) :
    ∀ reply ∈ deed.yielded, reply.id = id → reply.Armed handler := by
  intro left member same
  cases deed with
  | idle | letGo | destroyed => contradiction
  | made reply =>
      rw [List.mem_singleton.mp member] at same
      exact absurd (List.mem_singleton.mpr same.symm) old
  | stepped session reply step =>
      have own : reply.id = id → reply.Armed handler :=
        inUse reply (List.mem_singleton_self reply)
      rcases step.relocates_or_inPlace session reply with
        ⟨slot, rfl⟩ | stays
      · rcases List.mem_cons.mp member with rfl | moved
        · exact absurd (List.mem_singleton.mpr same.symm) old
        · rw [List.mem_singleton.mp moved] at same
          have kept : reply.id = id := same
          exact absurd (.taken kept slot) intact
      · rw [yielded, Effect.replies, stays.carried,
          List.mem_singleton] at member
        subst member
        obtain rfl := stays.id.symm.trans same
        exact step.armed_reply session (own rfl) intact
  | finalized reply =>
      have kept : left.id = reply.id := by
        rw [List.mem_singleton.mp member, Buffered.finalize_value]
        split <;> exact (Buffered.Kept.tagged reply).id
      exact absurd (kept.symm.trans same) (other reply rfl)
  | unwrapped fresh reply =>
      rw [List.mem_singleton.mp member] at same
      have kept : reply.id = id := same
      exact absurd (.unwrapped kept fresh) intact

/--
Through a turn that parts nothing the reply with an old identity stays armed, or its
handler fires.
-/
theorem Turn.fires_or_arms
    {turn : Turn}
    {id : Nat}
    {handler : Handler}
    (old : id < turn.before.session.nextId)
    (intact : ¬turn.deed.Parts id handler)
    (armed : turn.before.Arms id handler) :
    FiresOn handler id turn.events ∨ turn.after.Arms id handler := by
  have inUse :
      ∀ reply ∈ turn.deed.used, reply.id = id → reply.Armed handler :=
    fun reply member => armed reply (turn.used_subset member)
  by_cases finalizes :
      ∃ reply, turn.deed = .finalized reply ∧ reply.id = id
  · left
    obtain ⟨reply, done, rfl⟩ := finalizes
    have own : reply.Armed handler := by
      rw [done] at inUse
      exact inUse reply (List.mem_singleton_self reply) rfl
    obtain ⟨machine, below, rfl, hand⟩ := eq_of_finalized done
    exact firesOn_finalize hand own
  · right
    refine turn.forall_after armed (Deed.armed_yielded inUse ?_ intact ?_)
    · intro born
      exact Nat.not_lt.mpr (nextId_le_of_born born) old
    · intro reply done same
      exact finalizes ⟨reply, done, same⟩

/-! ## Whole runs -/

namespace FiresOn

variable {handler : Handler} {id : Nat} {first second : List Event}

theorem append_left
    (fires : FiresOn handler id first) :
    FiresOn handler id (first ++ second) := by
  obtain ⟨reply, alive, member, same⟩ := fires
  exact ⟨reply, alive, List.mem_append_left _ member, same⟩

theorem append_right
    (fires : FiresOn handler id second) :
    FiresOn handler id (first ++ second) := by
  obtain ⟨reply, alive, member, same⟩ := fires
  exact ⟨reply, alive, List.mem_append_right _ member, same⟩

/-- A handler that fires is among the firings. -/
theorem mem_firings
    (fires : FiresOn handler id first) :
    .handler handler.serial ∈ firings first := by
  obtain ⟨reply, alive, member, -⟩ := fires
  exact
    List.mem_map.mpr
      ⟨handler.serial, List.mem_filterMap.mpr ⟨_, member, rfl⟩, rfl⟩

end FiresOn

theorem eventsOf_append (first second : List Turn) :
    eventsOf (first ++ second) = eventsOf first ++ eventsOf second :=
  List.flatMap_append

/-- A turn takes no identity back. -/
theorem Turn.nextId_le (turn : Turn) :
    turn.before.session.nextId ≤ turn.after.session.nextId := by
  have longer := congrArg List.length turn.range_nextId
  rw [List.length_append, List.length_range, List.length_range] at longer
  exact longer ▸ Nat.le_add_right _ _

/--
Through turns that part nothing the reply with an old identity stays armed, or its
handler fires.
-/
theorem Run.fires_or_arms
    {former more : List Turn}
    {first machine : Machine}
    {id : Nat}
    {handler : Handler}
    (reached : Run former first)
    (old : id < first.session.nextId)
    (armed : first.Arms id handler)
    (run : Run (former ++ more) machine)
    (intact : ∀ turn ∈ more, ¬turn.deed.Parts id handler) :
    id < machine.session.nextId ∧
      (FiresOn handler id (eventsOf more) ∨ machine.Arms id handler) := by
  induction more using List.reverseRecOn generalizing machine with
  | nil =>
      rw [List.append_nil] at run
      rw [reached.unique run]
      exact ⟨old, Or.inr armed⟩
  | append_singleton more last inductionHypothesis =>
      rw [← List.append_assoc] at run
      obtain ⟨prior, earlier, follows, rfl⟩ := run.exists_of_snoc
      obtain ⟨intactEarlier, intactLast⟩ := List.forall_mem_append.mp intact
      obtain ⟨known, outcome⟩ := inductionHypothesis earlier intactEarlier
      have same := follows.session_before
      rw [← same] at known
      refine ⟨Nat.lt_of_lt_of_le known last.nextId_le, ?_⟩
      rw [eventsOf_append]
      rcases outcome with fired | stillArmed
      · exact Or.inl fired.append_left
      · have here : last.before.Arms id handler := by
          unfold Machine.Arms
          rw [earlier.replies_before follows]
          exact stillArmed
        have now :=
          Turn.fires_or_arms known
            (intactLast last (List.mem_singleton_self last)) here
        refine now.imp_left fun fires => ?_
        exact FiresOn.append_right (by simpa [eventsOf] using fires)

/-! ## Letting go -/

/-- A reply put into a slot lets the guarded reply there go. -/
theorem Turn.deed_shelve
    {machine : Machine}
    {reply kept : Response}
    {below : List Response}
    {slot : String}
    (hand : machine.hand = reply :: below)
    (present : machine.session.slots.get? slot = some ⟨kept, true⟩)
    (guarded : Bool) :
    (Turn.work machine (.shelve slot guarded)).deed = .letGo kept := by
  simp only [deed, Task.deed, hand, present]

/-- A reply is wrapped while pending with a handler, and turns do not part the two. -/
structure Wrapped
    (session : Session)
    (slot : String)
    (reply : Response)
    (handler : Handler)
    (between : List Turn) : Prop where
  held : session.slots.get? slot = some ⟨reply, false⟩
  armed : reply.Armed handler
  intact : ∀ turn ∈ between, ¬turn.deed.Parts reply.id handler

/-- A reply about to be wrapped is the one of its identity, and armed. -/
theorem Wrapped.arms
    {former between : List Turn}
    {prior : Machine}
    {session : Session}
    {slot : String}
    {reply : Response}
    {handler : Handler}
    (wrapped : Wrapped session slot reply handler between)
    (run : Run former prior)
    (follows : (Turn.order session (.act slot .guard)).Follows prior) :
    reply.id < prior.session.nextId ∧ prior.Arms reply.id handler := by
  have alive : reply ∈ prior.replies := by
    rw [← run.replies_before follows]
    exact (Machine.atRest session).mem_replies_of_slot wrapped.held
  refine ⟨lasting_id_lt.run run reply alive, ?_⟩
  intro other member same
  have single := (List.nodup_append.mp run.nodup_ids).1
  rw [List.inj_on_of_nodup_map single member alive same]
  exact wrapped.armed

/-! ## Ways to let go -/

/-- A run that has let a reply go goes on to rest. -/
theorem Run.exists_after_letGo
    {turns : List Turn}
    {letting : Turn}
    {machine : Machine}
    (run : Run (turns ++ [letting]) machine)
    {kept : Response}
    (lets : letting.deed = .letGo kept) :
    ∃ rest,
      Run (turns ++ letting :: rest) machine.run ∧
        machine.run.tasks = [] ∧
        rest ≠ [] := by
  obtain ⟨prior, -, -, rfl⟩ := run.exists_of_snoc
  obtain ⟨rest, goesOn, rested, -⟩ := run.exists_run
  rw [List.append_assoc, List.singleton_append] at goesOn
  refine ⟨rest, goesOn, rested, ?_⟩
  rintro rfl
  obtain ⟨-, -, tasks⟩ := Turn.after_letGo lets
  rw [run.unique goesOn, tasks] at rested
  contradiction

/-- A reply that is next put into the slot of a guarded one lets that one go. -/
theorem Run.exists_letGo_of_shelve
    {turns : List Turn}
    {machine : Machine}
    (run : Run turns machine)
    {slot : String}
    {guarded : Bool}
    {later : List Task}
    (planned : machine.tasks = .shelve slot guarded :: later)
    {kept : Response}
    (present : machine.session.slots.get? slot = some ⟨kept, true⟩) :
    ∃ letting rest,
      Run (turns ++ letting :: rest) machine.run ∧
        machine.run.tasks = [] ∧
        letting.deed = .letGo kept ∧
        rest ≠ [] := by
  obtain ⟨reply, below, hand⟩ := run.exists_hand planned
  have lets :
      (Turn.work { machine with tasks := later }
          (.shelve slot guarded)).deed =
        .letGo kept :=
    Turn.deed_shelve hand present guarded
  obtain ⟨rest, goesOn, rested, nonempty⟩ :=
    (run.work planned).exists_after_letGo lets
  rw [← Machine.run_of_step? (Machine.step?_of_cons planned)] at goesOn rested
  exact ⟨_, rest, goesOn, rested, lets, nonempty⟩

/-- So it does after the reply it was taken from has gone back. -/
theorem Run.exists_letGo_of_take
    {turns : List Turn}
    {machine : Machine}
    (run : Run turns machine)
    {origin slot : String}
    {first second : Bool}
    {later : List Task}
    (planned :
      machine.tasks = .shelve origin first :: .shelve slot second :: later)
    (free : machine.session.slots.get? origin = none)
    (other : slot ≠ origin)
    {kept : Response}
    (present : machine.session.slots.get? slot = some ⟨kept, true⟩) :
    ∃ back letting rest,
      Run (turns ++ back :: letting :: rest) machine.run ∧
        machine.run.tasks = [] ∧
        letting.deed = .letGo kept ∧
        rest ≠ [] := by
  obtain ⟨reply, below, hand⟩ := run.exists_hand planned
  have put :
      ({ machine with tasks := .shelve slot second :: later } :
          Machine).perform (.shelve origin first) =
        { machine with
          session :=
            { machine.session with
              slots := machine.session.slots.put origin ⟨reply, first⟩ }
          hand := below
          tasks := .shelve slot second :: later } := by
    simp only [Machine.perform, Machine.shelve, hand, free]
  have stowed := run.work planned
  rw [Machine.run_of_step? (Machine.step?_of_cons planned)]
  rw [put] at stowed ⊢
  have still :
      (machine.session.slots.put origin ⟨reply, first⟩).get? slot =
        some ⟨kept, true⟩ := by
    rw [Registry.get?_put, if_neg other, present]
  obtain ⟨letting, rest, goesOn, rested, lets, nonempty⟩ :=
    stowed.exists_letGo_of_shelve rfl still
  rw [List.append_assoc] at goesOn
  exact ⟨_, letting, rest, goesOn, rested, lets, nonempty⟩

/-- A command that lets go of what a slot holds. -/
inductive Command.Frees (session : Session) (slot : String) : Command → Prop
  | dropped : Frees session slot (.act slot .drop)
  | created : Frees session slot (.create slot)
  | adopted (message : Message String) :
      Frees session slot (.adopt slot message)
  | moved
      {origin : String}
      {content : Holding}
      (other : origin ≠ slot)
      (present : session.slots.get? origin = some content) :
      Frees session slot (.act origin (.move slot))
  | taken
      {origin : String}
      {content : Holding}
      (other : origin ≠ slot)
      (present : session.slots.get? origin = some content) :
      Frees session slot (.act origin (.ask (.relocate slot)))

/-- Carrying out a command lets a reply go on the way. -/
def Command.LetsGo
    (command : Command)
    (turns : List Turn)
    (machine : Machine)
    (kept : Response) :
    Prop :=
  ∃ first letting rest,
    Run (turns ++ (first ++ letting :: rest))
        (command.start machine.session).2.run ∧
      (command.start machine.session).2.run.tasks = [] ∧
      (first ++ [letting]).head? = some (.order machine.session command) ∧
      letting.deed = .letGo kept ∧
      rest ≠ []

/-- A command that puts its reply into the slot of a guarded one lets that one go. -/
theorem Command.letsGo_of_shelve
    {turns : List Turn}
    {machine : Machine}
    (run : Run turns machine)
    (rested : machine.tasks = [])
    {slot : String}
    {kept : Response}
    {command : Command}
    {guarded : Bool}
    (planned : (command.start machine.session).2.tasks = [.shelve slot guarded])
    (present :
      (command.start machine.session).2.session.slots.get? slot =
        some ⟨kept, true⟩) :
    command.LetsGo turns machine kept := by
  obtain ⟨letting, rest, goesOn, resting, lets, nonempty⟩ :=
    (run.order rested command).exists_letGo_of_shelve planned present
  rw [List.append_assoc] at goesOn
  exact ⟨_, letting, rest, goesOn, resting, rfl, lets, nonempty⟩

/-- So does one that puts it there after what it was taken from has gone back. -/
theorem Command.letsGo_of_take
    {turns : List Turn}
    {machine : Machine}
    (run : Run turns machine)
    (rested : machine.tasks = [])
    {origin slot : String}
    (other : origin ≠ slot)
    {kept : Response}
    {command : Command}
    {first second : Bool}
    (planned :
      (command.start machine.session).2.tasks =
        [.shelve origin first, .shelve slot second])
    (free :
      (command.start machine.session).2.session.slots.get? origin = none)
    (present :
      (command.start machine.session).2.session.slots.get? slot =
        some ⟨kept, true⟩) :
    command.LetsGo turns machine kept := by
  obtain ⟨back, letting, rest, goesOn, resting, lets, nonempty⟩ :=
    (run.order rested command).exists_letGo_of_take planned free other.symm
      present
  rw [List.append_assoc] at goesOn
  exact ⟨[_, back], letting, rest, goesOn, resting, rfl, lets, nonempty⟩

theorem Session.get?_emptied_of_ne
    (session : Session)
    {origin slot : String}
    (other : origin ≠ slot) :
    (session.emptied origin).slots.get? slot = session.slots.get? slot := by
  rw [emptied, Registry.get?_erase, if_neg other.symm]

/-- Every command that frees the slot of a guarded reply lets the reply go. -/
theorem Command.Frees.letsGo
    {turns : List Turn}
    {machine : Machine}
    (run : Run turns machine)
    (rested : machine.tasks = [])
    {slot : String}
    {kept : Response}
    (present : machine.session.slots.get? slot = some ⟨kept, true⟩)
    {command : Command}
    (frees : command.Frees machine.session slot) :
    command.LetsGo turns machine kept := by
  cases frees with
  | dropped =>
      have lets :
          (Turn.order machine.session (.act slot .drop)).deed = .letGo kept := by
        simp only [Turn.deed, Command.deed, present, Action.deed, if_true]
      obtain ⟨rest, goesOn, resting, nonempty⟩ :=
        (run.order rested _).exists_after_letGo lets
      exact ⟨[], _, rest, goesOn, resting, rfl, lets, nonempty⟩
  | created => exact letsGo_of_shelve run rested rfl present
  | adopted message => exact letsGo_of_shelve run rested rfl present
  | @moved origin content other found =>
      have started :
          (Command.act origin (.move slot)).start machine.session =
            (.done,
              .holding (machine.session.emptied origin) content.reply
                [.shelve slot content.guarded]) := by
        simp only [Command.start, found, Action.start]
      apply letsGo_of_shelve run rested
      · exact congrArg (fun begun => begun.2.tasks) started
      · rw [started]
        exact (machine.session.get?_emptied_of_ne other).trans present
  | @taken origin content other found =>
      have started :
          (Command.act origin (.ask (.relocate slot))).start machine.session =
            (.done,
              { session := (machine.session.emptied origin).grown
                hand :=
                  [.blank machine.session.nextId,
                    (content.reply.relocate machine.session.nextId).value.1]
                tasks := [.shelve origin content.guarded, .shelve slot false]
                trace :=
                  [.noted (.logged .debug "Moving response containers")] }) := by
        simp only [Command.start, found, Action.start]
        rfl
      apply letsGo_of_take run rested other
      · exact congrArg (fun begun => begun.2.tasks) started
      · rw [started]
        exact Session.get?_emptied_self
      · rw [started]
        exact (machine.session.get?_emptied_of_ne other).trans present

/-! ## Exactly once -/

/--
When a wrapped reply is let go, its handler has fired on it by the end of the next
turn, which finalizes it.
-/
theorem Wrapped.fires
    {former between rest : List Turn}
    {session : Session}
    {slot : String}
    {reply kept : Response}
    {handler : Handler}
    {letting next : Turn}
    {machine : Machine}
    (wrapped : Wrapped session slot reply handler between)
    (run :
      Run
        (former ++ .order session (.act slot .guard) ::
          (between ++ letting :: next :: rest))
        machine)
    (lets : letting.deed = .letGo kept)
    (same : kept.id = reply.id) :
    (∃ begun, next = .work begun .finalize) ∧
      FiresOn handler reply.id
        (eventsOf
          (.order session (.act slot .guard) :: between ++
            [letting, next])) := by
  obtain ⟨prior, reached, follows, -⟩ := run.exists_of_append
  obtain ⟨old, armed⟩ := wrapped.arms reached follows
  have parted :
      former ++ .order session (.act slot .guard) ::
          (between ++ letting :: next :: rest) =
        former ++ (.order session (.act slot .guard) :: between ++ [letting]) ++
          next :: rest := by
    simp only [List.append_assoc, List.cons_append, List.nil_append]
  rw [parted] at run
  obtain ⟨after, through, follows, -⟩ := run.exists_of_append
  -- Neither wrapping nor letting go is a deed that parts the two.
  have intact :
      ∀ turn ∈ .order session (.act slot .guard) :: between ++ [letting],
        ¬turn.deed.Parts reply.id handler := by
    have wrapping :
        (Turn.order session (.act slot .guard)).deed = .idle := by
      simp only [Turn.deed, Command.deed, wrapped.held, Action.deed]
    intro turn member parts
    rcases List.mem_append.mp member with earlier | last
    · rcases List.mem_cons.mp earlier with rfl | inBetween
      · rw [wrapping] at parts
        contradiction
      · exact wrapped.intact turn inBetween parts
    · rw [List.mem_singleton.mp last, lets] at parts
      contradiction
  obtain ⟨-, outcome⟩ := reached.fires_or_arms old armed through intact
  rw [← List.append_assoc] at through
  obtain ⟨-, -, -, rfl⟩ := through.exists_of_snoc
  obtain ⟨below, hand, tasks⟩ := Turn.after_letGo lets
  cases follows with
  | order rested => exact absurd (tasks.symm.trans rested) (List.cons_ne_nil _ _)
  | @work task later planned =>
      obtain ⟨rfl, -⟩ := List.cons.inj (planned.symm.trans tasks)
      refine ⟨⟨_, rfl⟩, ?_⟩
      rw [List.append_cons _ letting, eventsOf_append]
      rcases outcome with fired | stillArmed
      · exact fired.append_left
      · have own : kept.Armed handler :=
          stillArmed kept (Machine.mem_replies_of_hand _ hand) same
        have onTop :
            ({ letting.after with tasks := later } : Machine).hand =
              kept :: below :=
          hand
        have fires := Turn.firesOn_finalize onTop own
        rw [same] at fires
        apply FiresOn.append_right
        rw [eventsOf, List.flatMap_singleton]
        exact fires

/--
A reply that is pending with a handler when it is wrapped is finalized next when its
guard lets it go, once, and by then the handler has fired once and on this reply, if
nothing parted the two; dropping the guard lets it go, and so does whatever puts
another reply into its slot.  Taking the reply out of its guard leaves it as it is,
fires nothing and counts nothing.
-/
theorem guard_completes_once :
    (∀ former session slot reply handler between letting kept next rest machine,
      Run
          (former ++ .order session (.act slot .guard) ::
            (between ++ letting :: next :: rest))
          machine →
        Wrapped session slot reply handler between →
        letting.deed = .letGo kept →
        kept.id = reply.id →
        (∃ below, letting.after.hand = kept :: below) ∧
          letting.after.tasks =
            .finalize :: .discard :: letting.before.tasks ∧
          (∃ begun, next = .work begun .finalize) ∧
          FiresOn handler reply.id
            (eventsOf
              (.order session (.act slot .guard) :: between ++
                [letting, next])) ∧
          (firings
              (eventsOf
                (former ++ .order session (.act slot .guard) ::
                  (between ++ letting :: next :: rest)))).count
              (.handler handler.serial) =
            1) ∧
      (∀ turns machine slot guarded later kept,
        Run turns machine →
          machine.tasks = .shelve slot guarded :: later →
          machine.session.slots.get? slot = some ⟨kept, true⟩ →
          (Turn.work { machine with tasks := later }
              (.shelve slot guarded)).deed =
            .letGo kept) ∧
      (∀ turns machine slot kept (command : Command),
        Run turns machine →
          machine.tasks = [] →
          machine.session.slots.get? slot = some ⟨kept, true⟩ →
          command.Frees machine.session slot →
          command.LetsGo turns machine kept) ∧
      ∀ turns machine slot kept,
        Run turns machine →
          machine.tasks = [] →
          machine.session.slots.get? slot = some ⟨kept, true⟩ →
          let outcome := machine.session.perform (.act slot .unguard)
          outcome.session.slots.get? slot = some ⟨kept, false⟩ ∧
            firings outcome.trace = [] ∧
            counters outcome.trace = [] := by
  refine ⟨?once, ?shelved, ?freed, ?unwrapped⟩
  case once =>
    intro former session slot reply handler between letting kept next rest
      machine run wrapped lets same
    obtain ⟨finalizes, fires⟩ := wrapped.fires run lets same
    obtain ⟨below, hand, tasks⟩ := Turn.after_letGo lets
    refine ⟨⟨below, hand⟩, tasks, finalizes, fires, ?_⟩
    apply List.count_eq_one_of_mem run.nodup_firings
    have parted :
        former ++ .order session (.act slot .guard) ::
            (between ++ letting :: next :: rest) =
          former ++
            (.order session (.act slot .guard) :: between ++
              [letting, next]) ++ rest := by
      simp only [List.append_assoc, List.cons_append, List.nil_append]
    rw [parted, eventsOf_append, eventsOf_append]
    exact fires.append_right.append_left.mem_firings
  case shelved =>
    intro turns machine slot guarded later kept run planned present
    obtain ⟨reply, below, hand⟩ := run.exists_hand planned
    exact Turn.deed_shelve hand present guarded
  case freed =>
    intro turns machine slot kept command run rested present frees
    exact frees.letsGo run rested present
  case unwrapped =>
    intro turns machine slot kept run rested present
    have settled :=
      run.settled kept (machine.mem_replies_of_slot present)
    simp only [Session.perform_unguard present settled, if_true]
    refine ⟨?_, rfl, rfl⟩
    rw [Registry.get?_put, if_pos rfl]

/--
A wrapped reply with a handler is cleared, and then a new reply is put into its slot:
the handler fires once.  Before that, dropping the guard would have let the reply go,
and taking it out would have fired nothing.
-/
theorem guard_completes_once_overwritten :
    (∃ turns machine,
      Run turns machine ∧
        machine.replies.map Buffered.id = [0, 1] ∧
        counters (eventsOf turns) = [.finalized .buffered 200] ∧
        (firings (eventsOf turns)).count (.handler 0) = 1) ∧
      ∃ turns machine kept,
        Run turns machine ∧
          machine.session.slots.get? "a" = some ⟨kept, true⟩ ∧
          (Command.act "a" .drop).LetsGo turns machine kept ∧
          firings (machine.session.perform (.act "a" .unguard)).trace = [] := by
  have made := (Run.start.order rfl (.create "a")).work rfl
  have armed :=
    (made.order rfl (.act "a" (.ask (.setHandler "h" [])))).work rfl
  have wrapped := (armed.order rfl (.act "a" .guard)).work rfl
  have cleared := (wrapped.order rfl (.act "a" (.ask .clear))).work rfl
  have overwritten := (cleared.order rfl (.create "a")).work rfl
  have finalized := overwritten.work rfl
  obtain ⟨once, -, freed, unwrapped⟩ := guard_completes_once
  refine ⟨⟨_, _, finalized, rfl, rfl, ?_⟩, _, _, _, wrapped, rfl, ?_, ?_⟩
  · refine
      (once [_, _, _, _] _ "a" _ _ [_, _, _, _] _ _ _ [] _ finalized
        ⟨rfl, ⟨rfl, rfl⟩, ?_⟩ rfl rfl).2.2.2.2
    simp only [List.forall_mem_cons]
    exact ⟨nofun, nofun, nofun, nofun, nofun⟩
  · exact freed _ _ "a" _ _ wrapped rfl rfl .dropped
  · exact (unwrapped _ _ "a" _ wrapped rfl rfl).2.1

end Reply
