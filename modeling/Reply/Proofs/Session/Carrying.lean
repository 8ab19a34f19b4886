import Reply.Proofs.Session.Renaming

namespace Reply

/-!
# A reply carried to another slot

Two sessions hold a reply and its image in slots that may be different ones, and
mirror each other outside a list of slots that both are on.  While a step is
carried out both slots are empty, and no work can fill a slot on the list; so the
step goes alike, and reply and image come back to their slots.
-/

/-! ## What a step sets going, and the way back -/

namespace Effect

/-- The machine that carries out what a step sets going before the reply is back. -/
def core (effect : Effect) : Machine :=
  match effect.sequel with
  | .store _ moved =>
      ({ session := effect.session
         hand := [effect.reply, moved]
         tasks := []
         trace := [] } : Machine).note effect.notes
  | sequel =>
      ((Machine.holding effect.session effect.reply []).note
        effect.notes).follow sequel

/-- The work that waits until the reply is back. -/
def later (effect : Effect) : List Task :=
  match effect.sequel with
  | .store target _ => [.shelve target false]
  | _ => []

end Effect

/-- A step is carried out, then its reply goes back, then what it moved is stored. -/
theorem Session.ask_eq
    (session : Session)
    (slot : String)
    (content : Holding)
    (step : Step) :
    session.ask slot content step =
      ((step.apply (session.emptied slot) content.reply).answer,
        (step.apply (session.emptied slot) content.reply).core.withLater
          (.shelve slot content.guarded ::
            (step.apply (session.emptied slot) content.reply).later)) := by
  simp only [Session.ask, Effect.core, Effect.later]
  cases (step.apply (session.emptied slot) content.reply).sequel <;> rfl

/-- Asking comes to rest when all that the step set going is done. -/
theorem Session.perform_ask
    {session : Session}
    {slot : String}
    {content : Holding}
    (present : session.slots.get? slot = some content)
    (step : Step)
    {effect : Effect}
    (stepped : step.apply (session.emptied slot) content.reply = effect) :
    session.perform (.act slot (.ask step)) =
      ⟨(effect.core.withLater
          (.shelve slot content.guarded :: effect.later)).run.session,
        effect.answer,
        (effect.core.withLater
          (.shelve slot content.guarded :: effect.later)).run.trace⟩ := by
  simp only [perform, Command.start, present, Action.start, ask_eq, stepped]

theorem Effect.session_core (effect : Effect) :
    effect.core.session = effect.session := by
  unfold core
  split
  · rfl
  · rw [(Machine.follow_keeps _ _).1]
    rfl

theorem Effect.targets_core_subset (effect : Effect) :
    effect.core.targets ++ effect.later.flatMap Task.targets ⊆
      effect.targets := by
  cases carried : effect.sequel with
  | store slot moved =>
      intro target member
      simp only [core, later, targets, carried, Machine.targets, Machine.note,
        Sequel.targets, Task.targets, List.flatMap_cons, List.flatMap_nil,
        List.append_nil, List.mem_append, List.mem_cons, List.not_mem_nil,
        or_false] at member ⊢
      rcases member with (inSession | inReply | inMoved) | isSlot
      · exact Or.inr inSession
      · exact Or.inl (Or.inl inReply)
      · exact Or.inl (Or.inr (Or.inr inMoved))
      · exact Or.inl (Or.inr (Or.inl isSlot))
  | nothing | finalize | fire =>
      simp only [core, later, carried, List.flatMap_nil, List.append_nil]
      refine List.Subset.trans (Machine.targets_follow_subset _ _) ?_
      intro target member
      simp only [targets, carried, Machine.targets, Machine.note,
        Machine.holding, List.flatMap_cons, List.flatMap_nil, List.append_nil,
        List.mem_append] at member ⊢
      rcases member with inSequel | inSession | inReply
      · exact Or.inl (Or.inr inSequel)
      · exact Or.inr inSession
      · exact Or.inl (Or.inl inReply)

/-- Mirrored effects set mirrored work going. -/
theorem Effect.Mirrors.core
    {rename : Nat → Nat}
    {names : List String}
    {first second : Effect}
    (mirrors : first.Mirrors rename names second) :
    first.core.Mirrors rename names second.core ∧
      second.later = first.later := by
  simp only [Effect.core, Effect.later, mirrors.sequel, mirrors.notes]
  cases first.sequel with
  | store slot moved =>
      refine ⟨Machine.Mirrors.note ?_ _, rfl⟩
      refine ⟨mirrors.session, ?_, rfl, rfl⟩
      rw [mirrors.reply]
      rfl
  | nothing | finalize | fire =>
      refine ⟨Machine.Mirrors.follow (Machine.Mirrors.note ?_ _) _, rfl⟩
      refine ⟨mirrors.session, ?_, rfl, rfl⟩
      simp only [Machine.holding, mirrors.reply]
      rfl

namespace Machine

/-- Shelving into a free slot fills it and does nothing else. -/
theorem shelve_of_free
    {machine : Machine}
    {reply : Response}
    {below : List Response}
    {slot : String}
    (hand : machine.hand = reply :: below)
    (free : machine.session.slots.get? slot = none)
    (guarded : Bool) :
    machine.shelve slot guarded =
      { machine with
        session :=
          { machine.session with
            slots := machine.session.slots.put slot ⟨reply, guarded⟩ }
        hand := below } := by
  simp only [shelve, hand, free]

theorem run_withLater_cons
    {machine : Machine}
    (rested : machine.tasks = [])
    (task : Task)
    (later : List Task) :
    (machine.withLater (task :: later)).run =
      (({ machine with tasks := later } : Machine).perform task).run := by
  have planned : (machine.withLater (task :: later)).tasks = task :: later := by
    rw [withLater, rested, List.nil_append]
  exact run_of_step? (step?_of_cons planned)

end Machine

namespace Machine.Mirrors

variable
    {rename : Nat → Nat}
    {names : List String}
    {first second : Machine}

/-- A reply and its image go into free slots that are listed. -/
theorem shelve_listed
    (mirrors : first.Mirrors rename names second)
    {reply : Response}
    {below : List Response}
    (hand : first.hand = reply :: below)
    {home here : String}
    (homeListed : home ∈ names)
    (hereListed : here ∈ names)
    (homeFree : first.session.slots.get? home = none)
    (hereFree : second.session.slots.get? here = none)
    (guarded guardedHere : Bool) :
    (first.shelve home guarded).Mirrors rename names
        (second.shelve here guardedHere) ∧
      (first.shelve home guarded).session.slots.get? home =
        some ⟨reply, guarded⟩ ∧
      (second.shelve here guardedHere).session.slots.get? here =
        some ⟨reply.renamed rename, guardedHere⟩ ∧
      (∀ name, name ≠ here →
        (second.shelve here guardedHere).session.slots.get? name =
          second.session.slots.get? name) := by
  have handHere :
      second.hand =
        reply.renamed rename :: below.map (Buffered.renamed rename) := by
    rw [mirrors.hand, hand, List.map_cons]
  rw [shelve_of_free hand homeFree, shelve_of_free handHere hereFree]
  refine ⟨⟨?_, rfl, mirrors.tasks, mirrors.trace⟩, ?_, ?_, ?_⟩
  · refine { mirrors.session with slots := ?_ }
    intro name unlisted
    have notHome : name ≠ home := fun same => unlisted (same ▸ homeListed)
    have notHere : name ≠ here := fun same => unlisted (same ▸ hereListed)
    simp only [Registry.get?_put, notHome, notHere, if_false]
    exact mirrors.session.slots name unlisted
  · simp only [Registry.get?_put, if_true]
  · simp only [Registry.get?_put, if_true]
  · intro name other
    simp only [Registry.get?_put, other, if_false]

/--
Work that ends with a reply going into a free listed slot leaves the reply and
its image in their slots, and all else mirrored.
-/
theorem run_back
    (mirrors : first.Mirrors rename names second)
    {home here : String}
    (homeListed : home ∈ names)
    (hereListed : here ∈ names)
    (homeFree : first.session.slots.get? home = none)
    (hereFree : second.session.slots.get? here = none)
    {guarded : Bool}
    (guardedHere : Bool)
    {later : List Task}
    (unnamed :
      ∀ name ∈ names, name ∉ first.targets ++ later.flatMap Task.targets)
    (balanced : (first.withLater (.shelve home guarded :: later)).Balanced) :
    (first.withLater (.shelve home guarded :: later)).run.Mirrors rename names
        (second.withLater (.shelve here guardedHere :: later)).run ∧
      (first.withLater (.shelve home guarded :: later)).run.targets ⊆
        first.targets ++ later.flatMap Task.targets ∧
      (∃ reply,
        (first.withLater (.shelve home guarded :: later)).run.session.slots.get?
            home = some ⟨reply, guarded⟩ ∧
          (second.withLater
              (.shelve here guardedHere :: later)).run.session.slots.get?
            here = some ⟨reply.renamed rename, guardedHere⟩) ∧
      (∀ name ∈ names, name ≠ here →
        (second.withLater
            (.shelve here guardedHere :: later)).run.session.slots.get? name =
          second.session.slots.get? name) := by
  have firstRested := step?_eq_none_iff.mp first.step?_run
  have secondRested := step?_eq_none_iff.mp second.step?_run
  have coreUnnamed : ∀ name ∈ names, name ∉ first.targets := by
    intro name listed named
    exact unnamed name listed (List.mem_append_left _ named)
  obtain ⟨rested, kept⟩ := mirrors.run coreUnnamed
  have homeKept := (kept home homeListed).1.trans homeFree
  have hereKept := (kept here hereListed).2.trans hereFree
  have inHand :
      first.run.hand.length =
        sumOf Task.putsDown
          (first.run.tasks ++ .shelve home guarded :: later) :=
    balanced.run_withLater
  obtain ⟨reply, below, hand⟩ :
      ∃ reply below, first.run.hand = reply :: below := by
    apply List.exists_cons_of_length_pos
    rw [inHand]
    rw [firstRested]
    simp only [List.nil_append, sumOf, Task.putsDown]
    omega
  have onward :
      ({ first.run with tasks := later } : Machine).Mirrors rename names
        { second.run with tasks := later } :=
    { rested with tasks := rfl }
  obtain ⟨shelved, homeFilled, hereFilled, others⟩ :=
    onward.shelve_listed hand homeListed hereListed homeKept hereKept guarded
      guardedHere
  have restTargets :
      (({ first.run with tasks := later } : Machine).shelve home
          guarded).targets ⊆
        first.targets ++ later.flatMap Task.targets := by
    intro name named
    rcases List.mem_append.mp (targets_shelve_subset _ _ _ named)
      with inRest | inLater
    · apply List.mem_append_left
      apply first.targets_run_subset
      exact List.mem_append_left _ inRest
    · exact List.mem_append_right _ inLater
  have restUnnamed :
      ∀ name ∈ names,
        name ∉ (({ first.run with tasks := later } : Machine).shelve home
          guarded).targets :=
    fun name listed named => unnamed name listed (restTargets named)
  obtain ⟨last, lastKept⟩ := shelved.run restUnnamed
  rw [run_withLater first, run_withLater second, run_withLater_cons firstRested,
    run_withLater_cons secondRested]
  refine
    ⟨last, List.Subset.trans (targets_run_subset _) restTargets,
      ⟨reply, ?_, ?_⟩, ?_⟩
  · exact (lastKept home homeListed).1.trans homeFilled
  · exact (lastKept here hereListed).2.trans hereFilled
  · intro name listed other
    rw [Machine.perform, (lastKept name listed).2, others name other]
    exact (kept name listed).2

end Machine.Mirrors

/-! ## Asking a reply and its image -/

/-- A session holds a reply in one slot, its mirror image the image in another. -/
structure Session.Carries
    (rename : Nat → Nat)
    (names : List String)
    (home here : String)
    (first second : Session) :
    Prop where
  mirrors : first.Mirrors rename names second
  unnamed : ∀ name ∈ names, name ∉ first.targets
  homeListed : home ∈ names
  hereListed : here ∈ names
  reply :
    ∃ reply guarded guardedHere,
      first.slots.get? home = some ⟨reply, guarded⟩ ∧
        second.slots.get? here = some ⟨reply.renamed rename, guardedHere⟩

/-- Emptying listed slots leaves sessions that mirror each other. -/
theorem Session.Mirrors.emptied
    {rename : Nat → Nat}
    {names : List String}
    {first second : Session}
    (mirrors : first.Mirrors rename names second)
    {home here : String}
    (homeListed : home ∈ names)
    (hereListed : here ∈ names) :
    (first.emptied home).Mirrors rename names (second.emptied here) := by
  refine { mirrors with slots := ?_ }
  intro name unlisted
  have notHome : name ≠ home := fun same => unlisted (same ▸ homeListed)
  have notHere : name ≠ here := fun same => unlisted (same ▸ hereListed)
  simp only [Session.emptied, Registry.get?_erase, notHome, notHere, if_false]
  exact mirrors.slots name unlisted

/-- What a step asked of a reply and of its image comes to. -/
structure Session.Asks
    (rename : Nat → Nat)
    (names : List String)
    (home here : String)
    (first second : Session)
    (step : Step) :
    Prop where
  carries :
    (first.perform (.act home (.ask step))).session.Carries rename names home
      here (second.perform (.act here (.ask step))).session
  answer :
    (second.perform (.act here (.ask step))).answer =
      (first.perform (.act home (.ask step))).answer
  trace :
    (second.perform (.act here (.ask step))).trace =
      (first.perform (.act home (.ask step))).trace.map
        (Event.renamed rename)
  kept :
    ∀ name ∈ names, name ≠ here →
      (second.perform (.act here (.ask step))).session.slots.get? name =
        second.slots.get? name

/-- A step asked of the reply and of its image goes alike. -/
theorem Session.Carries.ask
    {rename : Nat → Nat}
    {names : List String}
    {home here : String}
    {first second : Session}
    (carries : first.Carries rename names home here second)
    {step : Step}
    (unnamed : ∀ name ∈ names, name ∉ step.targets) :
    first.Asks rename names home here second step := by
  obtain ⟨reply, guarded, guardedHere, atHome, atHere⟩ := carries.reply
  have emptied := carries.mirrors.emptied carries.homeListed carries.hereListed
  have stepped := step.mirrors_apply emptied reply
  obtain ⟨core, later⟩ := stepped.core
  have homeFree :
      (step.apply (first.emptied home) reply).core.session.slots.get? home =
        none := by
    rw [Effect.session_core, (step.frame_apply _ _).1, Session.emptied,
      Registry.get?_erase, if_pos rfl]
  have slotsHere :
      ∀ name,
        (step.apply (second.emptied here)
            (reply.renamed rename)).core.session.slots.get? name =
          if name = here then none else second.slots.get? name := by
    intro name
    rw [Effect.session_core, (step.frame_apply _ _).1, Session.emptied,
      Registry.get?_erase]
  have hereFree := slotsHere here
  rw [if_pos rfl] at hereFree
  have balanced := Command.balanced_start first (.act home (.ask step))
  simp only [Command.start, atHome, Action.start, Session.ask_eq] at balanced
  have effectTargets :
      (step.apply (first.emptied home) reply).targets ⊆
        step.targets ++ first.targets := by
    refine List.Subset.trans (step.targets_apply_subset _ _) ?_
    have inSession := Session.targets_reply_subset atHome
    have inEmptied := first.targets_emptied_subset home
    rw [List.append_assoc]
    refine List.append_subset.mpr ⟨List.subset_append_left .., ?_⟩
    refine List.Subset.trans ?_ (List.subset_append_right ..)
    exact List.append_subset.mpr ⟨inSession, inEmptied⟩
  have workTargets :=
    List.Subset.trans (Effect.targets_core_subset _) effectTargets
  have workUnnamed :
      ∀ name ∈ names, name ∉ step.targets ++ first.targets := by
    intro name listed named
    rcases List.mem_append.mp named with inStep | inSession
    · exact unnamed name listed inStep
    · exact carries.unnamed name listed inSession
  obtain ⟨rested, targets, back, others⟩ :=
    core.run_back carries.homeListed carries.hereListed homeFree hereFree
      guardedHere
      (fun name listed named =>
        workUnnamed name listed (workTargets named))
      balanced
  have plain := first.perform_ask atHome step rfl
  have moved := second.perform_ask atHere step rfl
  rw [later] at moved
  obtain ⟨returned, homeAgain, hereAgain⟩ := back
  refine
    { carries := ?_
      answer := ?_
      trace := ?_
      kept := ?_ }
  · rw [plain, moved]
    refine
      ⟨rested.session, ?_, carries.homeListed, carries.hereListed,
        ⟨returned, guarded, guardedHere, homeAgain, hereAgain⟩⟩
    intro name listed named
    apply workUnnamed name listed
    apply workTargets
    apply targets
    exact List.mem_append_left _ (List.mem_append_left _ named)
  · rw [plain, moved]
    exact stepped.answer
  · rw [plain, moved]
    exact rested.trace
  · intro name listed other
    rw [moved, others name listed other, slotsHere, if_neg other]

end Reply
