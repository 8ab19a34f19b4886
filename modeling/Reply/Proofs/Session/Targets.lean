import Reply.Proofs.Session.Settled

namespace Reply

/-!
# The slots that work can fill

A step can fill a slot other than the one it was asked in only by relocating, at
once or in a script that a handler plays later.  The names that a machine could
ever fill are those in its planned tasks and in all scripts it has; carrying out
a task adds none, and fills no slot but one of these.
-/

namespace Step

mutual

/-- The slots that a step names, at once or in a script. -/
def targets : Step → List String
  | .setHandler _ script => scriptTargets script
  | .relocate slot => [slot]
  | _ => []

/-- The slots that the steps of a script name. -/
def scriptTargets : Script → List String
  | [] => []
  | (_, step) :: rest => step.targets ++ scriptTargets rest

end

end Step

/-- The slots that a handler's script names. -/
def Handler.targets (handler : Handler) : List String :=
  Step.scriptTargets handler.script

/-- The slots that the handler of a reply names. -/
def Buffered.targets (reply : Response) : List String :=
  reply.handler.toList.flatMap Handler.targets

/-- The slots that the handlers of a session name. -/
def Session.targets (session : Session) : List String :=
  session.handlers.contents.flatMap Handler.targets ++
    session.replies.flatMap Buffered.targets

/-- The slots that a sequel names. -/
def Sequel.targets : Sequel → List String
  | .fire handler => handler.targets
  | .store slot reply => slot :: reply.targets
  | _ => []

/-- The slots that a task names. -/
def Task.targets : Task → List String
  | .play _ script => Step.scriptTargets script
  | .shelve slot _ => [slot]
  | _ => []

/-- The slots that a machine could ever fill. -/
def Machine.targets (machine : Machine) : List String :=
  machine.session.targets ++ machine.hand.flatMap Buffered.targets ++
    machine.tasks.flatMap Task.targets

/-! ## No name is new -/

theorem Buffered.Kept.targets
    {before after : Response}
    (kept : Buffered.Kept before after) :
    after.targets = before.targets := by
  rw [Buffered.targets, Buffered.targets, kept.handler]

namespace Session

/-- A released handler brings its own names and no other. -/
theorem targets_accept_subset
    (session : Session)
    (name : String)
    (handler? : Option Handler) :
    ({ session with handlers := session.handlers.accept name handler? } :
        Session).targets ⊆
      handler?.toList.flatMap Handler.targets ++ session.targets := by
  cases handler? with
  | none => exact List.Subset.refl _
  | some handler =>
      intro target member
      rw [Option.toList_some, List.flatMap_singleton]
      rcases List.mem_append.mp member with inStore | inSlots
      · obtain ⟨other, held, named⟩ := List.mem_flatMap.mp inStore
        rcases Registry.mem_contents_put held with rfl | kept
        · exact List.mem_append_left _ named
        · exact
            List.mem_append_right _
              (List.mem_append_left _
                (List.mem_flatMap.mpr ⟨other, kept, named⟩))
      · exact List.mem_append_right _ (List.mem_append_right _ inSlots)

theorem targets_erase_subset
    (session : Session)
    (name : String) :
    ({ session with handlers := session.handlers.erase name } :
        Session).targets ⊆ session.targets := by
  intro target member
  rcases List.mem_append.mp member with inStore | inSlots
  · obtain ⟨other, held, named⟩ := List.mem_flatMap.mp inStore
    have kept := Registry.contents_erase_subset _ name held
    exact List.mem_append_left _ (List.mem_flatMap.mpr ⟨other, kept, named⟩)
  · exact List.mem_append_right _ inSlots

/-- A handler that is found under a name names what the session names. -/
theorem targets_found_subset
    (session : Session)
    (name : String) :
    (session.handlers.get? name).toList.flatMap Handler.targets ⊆
      session.targets := by
  intro target member
  obtain ⟨handler, found, named⟩ := List.mem_flatMap.mp member
  exact
    List.mem_append_left _
      (List.mem_flatMap.mpr
        ⟨handler, Registry.mem_contents_of_get? (Option.mem_toList.mp found),
          named⟩)

/-- A reply in a slot names what the session names. -/
theorem targets_reply_subset
    {session : Session}
    {slot : String}
    {holding : Holding}
    (found : session.slots.get? slot = some holding) :
    holding.reply.targets ⊆ session.targets := by
  intro target named
  refine List.mem_append_right _ (List.mem_flatMap.mpr ⟨holding.reply, ?_, named⟩)
  exact
    List.mem_map.mpr ⟨holding, Registry.mem_contents_of_get? found, rfl⟩

/-- A reply put into a slot brings its own names and no other. -/
theorem targets_putSlot_subset
    (session : Session)
    (slot : String)
    (holding : Holding) :
    ({ session with slots := session.slots.put slot holding } :
        Session).targets ⊆ holding.reply.targets ++ session.targets := by
  intro target member
  rcases List.mem_append.mp member with inStore | inSlots
  · exact List.mem_append_right _ (List.mem_append_left _ inStore)
  · obtain ⟨reply, held, named⟩ := List.mem_flatMap.mp inSlots
    obtain ⟨other, present, rfl⟩ := List.mem_map.mp held
    rcases Registry.mem_contents_put present with rfl | kept
    · exact List.mem_append_left _ named
    · refine List.mem_append_right _ (List.mem_append_right _ ?_)
      exact
        List.mem_flatMap.mpr
          ⟨other.reply, List.mem_map.mpr ⟨other, kept, rfl⟩, named⟩

theorem targets_emptied_subset
    (session : Session)
    (slot : String) :
    (session.emptied slot).targets ⊆ session.targets := by
  intro target member
  rcases List.mem_append.mp member with inStore | inSlots
  · exact List.mem_append_left _ inStore
  · obtain ⟨reply, held, named⟩ := List.mem_flatMap.mp inSlots
    obtain ⟨other, present, rfl⟩ := List.mem_map.mp held
    have kept := Registry.contents_erase_subset _ slot present
    exact
      List.mem_append_right _
        (List.mem_flatMap.mpr
          ⟨other.reply, List.mem_map.mpr ⟨other, kept, rfl⟩, named⟩)

end Session

/-- The slots that an effect names. -/
def Effect.targets (effect : Effect) : List String :=
  effect.reply.targets ++ effect.sequel.targets ++ effect.session.targets

/-- A handler that takes another's place names what one of the two names. -/
theorem Handler.targets_or_subset (handler? former? : Option Handler) :
    (handler?.or former?).toList.flatMap targets ⊆
      handler?.toList.flatMap targets ++ former?.toList.flatMap targets := by
  cases handler? with
  | none => exact List.Subset.refl _
  | some handler => exact List.subset_append_left ..

theorem Sequel.targets_firing (handler? : Option Handler) :
    (firing handler?).targets = handler?.toList.flatMap Handler.targets := by
  cases handler? with
  | none => rfl
  | some handler => exact (List.flatMap_singleton ..).symm

/-- An effect names what its parts name. -/
theorem Effect.targets_subset
    {effect : Effect}
    {names : List String}
    (reply : effect.reply.targets ⊆ names)
    (sequel : effect.sequel.targets ⊆ names)
    (session : effect.session.targets ⊆ names) :
    effect.targets ⊆ names :=
  List.append_subset.mpr ⟨List.append_subset.mpr ⟨reply, sequel⟩, session⟩

/-- What a step leaves names only slots that were named before. -/
theorem Step.targets_apply_subset
    (step : Step)
    (session : Session)
    (reply : Response) :
    (step.apply session reply).targets ⊆
      step.targets ++ reply.targets ++ session.targets := by
  have fromStep :
      step.targets ⊆ step.targets ++ reply.targets ++ session.targets := by
    rw [List.append_assoc]
    exact List.subset_append_left ..
  have fromReply :
      reply.targets ⊆ step.targets ++ reply.targets ++ session.targets :=
    List.subset_append_of_subset_left _ (List.subset_append_right ..)
  have fromSession :
      session.targets ⊆ step.targets ++ reply.targets ++ session.targets :=
    List.subset_append_right ..
  have nothing :
      [] ⊆ step.targets ++ reply.targets ++ session.targets :=
    List.nil_subset _
  cases content : step.isContent with
  | true =>
      have effect := step.onContent session reply content
      obtain ⟨flags, same⟩ := effect.session
      apply Effect.targets_subset
      · rw [effect.kept.targets]
        exact fromReply
      · rw [effect.sequel]
        exact nothing
      · rw [same]
        exact fromSession
  | false =>
      cases step with
      | clear | finalize | setProbe =>
          exact Effect.targets_subset fromReply nothing fromSession
      | setHandler name script =>
          refine Effect.targets_subset ?_ nothing fromSession
          have attached :
              (({ reply with
                    handler := some ⟨session.nextSerial, name, script⟩
                    completed := false } : Response)).targets =
                (Step.setHandler name script).targets := by
            exact List.append_nil _
          exact attached ▸ fromStep
      | releaseHandler name =>
          rw [apply, Session.releaseHandler_eq]
          refine Effect.targets_subset nothing nothing ?_
          exact
            List.Subset.trans (session.targets_accept_subset name reply.handler)
              (List.append_subset.mpr ⟨fromReply, fromSession⟩)
      | invokeHandler name =>
          rw [apply, Session.invokeHandler_eq]
          refine
            Effect.targets_subset fromReply ?_
              (List.Subset.trans (session.targets_erase_subset name)
                fromSession)
          rw [Sequel.targets_firing]
          exact
            List.Subset.trans (session.targets_found_subset name) fromSession
      | attachHandler name =>
          rw [apply, Session.attachHandler_eq]
          refine
            Effect.targets_subset ?_ nothing
              (List.Subset.trans (session.targets_erase_subset name)
                fromSession)
          have found :=
            List.Subset.trans (session.targets_found_subset name) fromSession
          exact
            List.Subset.trans (Handler.targets_or_subset _ reply.handler)
              (List.append_subset.mpr ⟨found, fromReply⟩)
      | releaseProbe name =>
          rw [apply, Session.releaseProbe_eq]
          exact Effect.targets_subset fromReply nothing fromSession
      | attachProbe name =>
          rw [apply, Session.attachProbe_eq]
          exact Effect.targets_subset fromReply nothing fromSession
      | relocate slot =>
          refine Effect.targets_subset nothing ?_ fromSession
          have moved :
              (reply.relocate session.nextId).value.1.targets ⊆
                reply.targets := by
            simp only [Buffered.relocate, Buffered.targets]
            split
            · exact List.nil_subset _
            · exact List.Subset.refl _
          refine List.cons_subset.mpr ⟨?_, List.Subset.trans moved fromReply⟩
          exact fromStep List.mem_cons_self
      | _ => contradiction

namespace Machine

theorem targets_fire_subset
    (machine : Machine)
    (handler : Handler) :
    (machine.fire handler).targets ⊆ handler.targets ++ machine.targets := by
  simp only [fire]
  split
  · exact List.subset_append_right ..
  · intro target member
    simp only [targets, List.flatMap_cons, List.mem_append] at member ⊢
    rcases member with earlier | planned | later
    · exact Or.inr (Or.inl earlier)
    · exact Or.inl planned
    · exact Or.inr (Or.inr later)

theorem targets_follow_subset
    (machine : Machine)
    (sequel : Sequel) :
    (machine.follow sequel).targets ⊆ sequel.targets ++ machine.targets := by
  cases sequel with
  | nothing => exact List.Subset.refl _
  | finalize => exact List.Subset.refl _
  | fire handler => exact machine.targets_fire_subset handler
  | store slot reply =>
      intro target member
      simp only [follow, targets, Sequel.targets, Task.targets,
        List.flatMap_cons, List.mem_append, List.mem_cons,
        List.not_mem_nil, or_false] at member ⊢
      tauto

theorem targets_finalize_subset (machine : Machine) :
    machine.finalize.targets ⊆ machine.targets := by
  simp only [finalize]
  split
  · exact List.Subset.refl _
  · next reply below hand =>
      have parted :
          reply.finalize.value.2.toList.flatMap Handler.targets ++
              reply.finalize.value.1.targets ⊆
            reply.targets := by
        rw [Buffered.finalize_value]
        split
        · rw [(Buffered.Kept.tagged reply).targets]
          exact List.Subset.refl _
        · exact List.append_subset.mpr ⟨List.Subset.refl _, List.nil_subset _⟩
      obtain ⟨due, left⟩ := List.append_subset.mp parted
      have inHand : reply.targets ⊆ machine.targets := by
        intro target named
        simp only [targets, hand, List.flatMap_cons, List.mem_append]
        exact Or.inl (Or.inr (Or.inl named))
      have finished :
          ({ machine with hand := reply.finalize.value.1 :: below }.note
            reply.finalize.notes).targets ⊆ machine.targets := by
        intro target member
        simp only [targets, note, hand, List.flatMap_cons,
          List.mem_append] at member ⊢
        rcases member with (session | top | under) | planned
        · exact Or.inl (Or.inl session)
        · exact Or.inl (Or.inr (Or.inl (left top)))
        · exact Or.inl (Or.inr (Or.inr under))
        · exact Or.inr planned
      split
      · next handler fires =>
          rw [fires, Option.toList_some, List.flatMap_singleton] at due
          exact
            List.Subset.trans (targets_fire_subset _ handler)
              (List.append_subset.mpr
                ⟨List.Subset.trans due inHand, finished⟩)
      · exact finished

theorem targets_play_subset
    (machine : Machine)
    (handler : String)
    (script : Script) :
    (machine.play handler script).targets ⊆
      Step.scriptTargets script ++ machine.targets := by
  cases script with
  | nil => exact List.subset_append_right ..
  | cons line rest =>
      rcases line with ⟨word, step⟩
      simp only [play, Step.scriptTargets]
      split
      · exact List.subset_append_right ..
      · next reply below hand =>
          have stepped := step.targets_apply_subset machine.session reply
          have known :
              step.targets ++ reply.targets ++ machine.session.targets ⊆
                step.targets ++ Step.scriptTargets rest ++
                  machine.targets := by
            intro target member
            simp only [targets, hand, List.flatMap_cons,
              List.mem_append] at member ⊢
            rcases member with (inStep | inReply) | inSession
            · exact Or.inl (Or.inl inStep)
            · exact Or.inr (Or.inl (Or.inr (Or.inl inReply)))
            · exact Or.inr (Or.inl (Or.inl inSession))
          obtain ⟨parts, inSession⟩ :=
            List.append_subset.mp (List.Subset.trans stepped known)
          obtain ⟨inReply, inSequel⟩ := List.append_subset.mp parts
          refine
            List.Subset.trans (targets_follow_subset _ _)
              (List.append_subset.mpr ⟨inSequel, ?_⟩)
          refine
            List.append_subset.mpr
              ⟨List.append_subset.mpr ⟨inSession, ?_⟩, ?_⟩
          · refine List.append_subset.mpr ⟨inReply, ?_⟩
            intro target member
            simp only [targets, hand, List.flatMap_cons, List.mem_append]
            exact Or.inr (Or.inl (Or.inr (Or.inr member)))
          · intro target member
            simp only [note, Task.targets, targets, List.flatMap_cons,
              List.nil_append, List.mem_append] at member ⊢
            rcases member with inRest | planned
            · exact Or.inl (Or.inr inRest)
            · exact Or.inr (Or.inr planned)

theorem targets_shelve_subset
    (machine : Machine)
    (slot : String)
    (guarded : Bool) :
    (machine.shelve slot guarded).targets ⊆ machine.targets := by
  simp only [shelve]
  split
  · exact List.Subset.refl _
  · next reply below hand =>
      have inHand : reply.targets ⊆ machine.targets := by
        intro target named
        simp only [targets, hand, List.flatMap_cons, List.mem_append]
        exact Or.inl (Or.inr (Or.inl named))
      have inSession : machine.session.targets ⊆ machine.targets := by
        intro target named
        exact List.mem_append_left _ (List.mem_append_left _ named)
      have under : below.flatMap Buffered.targets ⊆ machine.targets := by
        intro target named
        simp only [targets, hand, List.flatMap_cons, List.mem_append]
        exact Or.inl (Or.inr (Or.inr named))
      have planned : machine.tasks.flatMap Task.targets ⊆ machine.targets :=
        List.subset_append_right ..
      have stored :=
        List.Subset.trans
          (machine.session.targets_putSlot_subset slot ⟨reply, guarded⟩)
          (List.append_subset.mpr ⟨inHand, inSession⟩)
      split
      · next former found =>
          have given :=
            List.Subset.trans (Session.targets_reply_subset found) inSession
          exact
            List.append_subset.mpr
              ⟨List.append_subset.mpr
                ⟨stored, List.append_subset.mpr ⟨given, under⟩⟩, planned⟩
      · exact
          List.append_subset.mpr
            ⟨List.append_subset.mpr ⟨stored, under⟩, planned⟩

/-- Carrying out a task names nothing new. -/
theorem targets_perform_subset
    (machine : Machine)
    (task : Task) :
    (machine.perform task).targets ⊆ task.targets ++ machine.targets := by
  cases task with
  | finalize => exact machine.targets_finalize_subset
  | play handler script => exact machine.targets_play_subset handler script
  | report handler word answer => exact List.Subset.refl _
  | shelve slot guarded =>
      exact
        List.subset_append_of_subset_right _
          (machine.targets_shelve_subset slot guarded)
  | discard =>
      intro target member
      simp only [perform, targets, Task.targets, List.nil_append,
        List.mem_append] at member ⊢
      refine member.imp_left (Or.imp_right ?_)
      intro inTail
      obtain ⟨reply, held, named⟩ := List.mem_flatMap.mp inTail
      exact
        List.mem_flatMap.mpr ⟨reply, List.mem_of_mem_tail held, named⟩

end Machine

/-- Taking the next task off the plan names nothing new, nor does the task. -/
theorem Machine.targets_next_subset
    {machine : Machine}
    {task : Task}
    {later : List Task}
    (planned : machine.tasks = task :: later) :
    (({ machine with tasks := later } : Machine).perform task).targets ⊆
      machine.targets := by
  refine List.Subset.trans (targets_perform_subset _ task) ?_
  simp only [targets, planned, List.flatMap_cons]
  refine List.append_subset.mpr ⟨?_, ?_⟩
  · exact
      List.subset_append_of_subset_right _ (List.subset_append_left ..)
  · refine List.append_subset.mpr ⟨List.subset_append_left .., ?_⟩
    exact
      List.subset_append_of_subset_right _ (List.subset_append_right ..)

/-- A machine that came to rest names nothing new. -/
theorem Machine.targets_run_subset (machine : Machine) :
    machine.run.targets ⊆ machine.targets := by
  induction machine using Machine.run.induct with
  | case1 machine next stepped lighter inductionHypothesis =>
      rw [run_of_step? stepped]
      obtain ⟨task, later, planned, rfl⟩ := exists_of_step? stepped
      exact List.Subset.trans inductionHypothesis (targets_next_subset planned)
  | case2 machine resting =>
      rw [run_of_step?_none resting]
      exact List.Subset.refl _

/-! ## Slots that are not named stay as they are -/

namespace Machine

/-- A task leaves alone the slots that it does not name. -/
theorem get?_perform
    (machine : Machine)
    (task : Task)
    {name : String}
    (unnamed : name ∉ task.targets) :
    (machine.perform task).session.slots.get? name =
      machine.session.slots.get? name := by
  cases task with
  | finalize =>
      cases hand : machine.hand with
      | nil => simp only [perform, finalize, hand]
      | cons reply below => rw [perform, (finalize_keeps hand).1]
  | play handler script =>
      cases script with
      | nil => rfl
      | cons line rest =>
          rcases line with ⟨word, step⟩
          simp only [perform, play]
          split
          · rfl
          · next reply below hand =>
              rw [(follow_keeps _ _).1]
              simp only [note, (step.frame_apply machine.session reply).1]
  | report handler word answer => rfl
  | shelve slot guarded =>
      have other : name ≠ slot := by
        intro same
        exact unnamed (List.mem_singleton.mpr same)
      simp only [perform, shelve]
      split
      · rfl
      · split <;> simp only [Registry.get?_put, other, if_false]
  | discard => rfl

/-! ## Work planned for later -/

/-- A machine with more work planned behind all else. -/
def withLater (machine : Machine) (later : List Task) : Machine :=
  { machine with tasks := machine.tasks ++ later }

theorem fire_withLater
    (machine : Machine)
    (later : List Task)
    (handler : Handler) :
    (machine.withLater later).fire handler =
      (machine.fire handler).withLater later := by
  rcases machine with ⟨session, hand, tasks, trace⟩
  cases hand <;> rfl

theorem follow_withLater
    (machine : Machine)
    (later : List Task)
    (sequel : Sequel) :
    (machine.withLater later).follow sequel =
      (machine.follow sequel).withLater later := by
  cases sequel with
  | fire handler => exact machine.fire_withLater later handler
  | nothing | finalize | store => rfl

/-- A task does not look at later work. -/
theorem perform_withLater
    (machine : Machine)
    (later : List Task)
    (task : Task) :
    (machine.withLater later).perform task =
      (machine.perform task).withLater later := by
  rcases machine with ⟨session, hand, tasks, trace⟩
  cases hand with
  | nil =>
      cases task with
      | play handler script => cases script <;> rfl
      | _ => rfl
  | cons reply below =>
      cases task with
      | finalize =>
          simp only [perform, finalize, withLater]
          split <;> rfl
      | play handler script =>
          cases script with
          | nil => rfl
          | cons line rest =>
              rcases line with ⟨word, step⟩
              exact
                follow_withLater
                  (({ session := (step.apply session reply).session
                      hand := (step.apply session reply).reply :: below
                      tasks :=
                        .report handler word
                            (step.apply session reply).answer ::
                          .play handler rest :: tasks
                      trace := trace } : Machine).note
                    (step.apply session reply).notes)
                  later (step.apply session reply).sequel
      | report | discard => rfl
      | shelve slot guarded =>
          simp only [perform, shelve, withLater]
          split <;> rfl

/-- A machine comes to rest before it turns to later work. -/
theorem run_withLater
    (machine : Machine)
    (later : List Task) :
    (machine.withLater later).run = (machine.run.withLater later).run := by
  induction machine using Machine.run.induct with
  | case1 machine next stepped lighter inductionHypothesis =>
      rw [run_of_step? stepped, ← inductionHypothesis]
      obtain ⟨task, rest, planned, rfl⟩ := exists_of_step? stepped
      have both : (machine.withLater later).tasks = task :: (rest ++ later) := by
        rw [withLater, planned, List.cons_append]
      rw [← perform_withLater]
      exact run_of_step? (step?_of_cons both)
  | case2 machine resting =>
      rw [run_of_step?_none resting]

/-- Replies that later work puts down are still in hand when it comes up. -/
theorem Balanced.run_withLater
    {machine : Machine}
    {later : List Task}
    (balanced : (machine.withLater later).Balanced) :
    (machine.run.withLater later).Balanced := by
  induction machine using Machine.run.induct with
  | case1 machine next stepped lighter inductionHypothesis =>
      rw [run_of_step? stepped]
      obtain ⟨task, rest, planned, rfl⟩ := exists_of_step? stepped
      apply inductionHypothesis
      rw [← perform_withLater]
      apply balanced_perform
      simpa [Balanced, withLater, planned, sumOf] using balanced
  | case2 machine resting =>
      rw [run_of_step?_none resting]
      exact balanced

end Machine

end Reply
