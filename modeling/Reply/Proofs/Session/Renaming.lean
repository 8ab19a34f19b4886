import Reply.Proofs.Session.Targets

namespace Reply

/-!
# Sessions that differ in identities and in some slots

Nothing that is done to a reply looks at its identity.  So a session and its
mirror image, in which replies go by other identities and some slots have other
contents, answer alike and note alike as long as no work names one of these
slots.  New replies stay matched because both sessions count identities on.
-/

/-! ## The image of what a session has -/

/-- A reply under another identity. -/
def Buffered.renamed
    {η : Type}
    (rename : Nat → Nat)
    (reply : Buffered η) :
    Buffered η :=
  { reply with id := rename reply.id }

/-- The content of a slot with its reply under another identity. -/
def Holding.renamed (rename : Nat → Nat) (holding : Holding) : Holding :=
  { holding with reply := holding.reply.renamed rename }

/-- A sequel with its reply under another identity. -/
def Sequel.renamed (rename : Nat → Nat) : Sequel → Sequel
  | .nothing => .nothing
  | .finalize => .finalize
  | .fire handler => .fire handler
  | .store slot reply => .store slot (reply.renamed rename)

/-- An event with its reply under another identity. -/
def Event.renamed (rename : Nat → Nat) : Event → Event
  | .noted note => .noted note
  | .fired serial name reply alive =>
      .fired serial name (reply.renamed rename) alive
  | .reported handler word answer => .reported handler word answer

/--
A session mirrors another one: all but the slots listed is the same up to
identities, and the next identities correspond.
-/
structure Session.Mirrors
    (rename : Nat → Nat)
    (names : List String)
    (first second : Session) :
    Prop where
  slots :
    ∀ name ∉ names,
      second.slots.get? name =
        (first.slots.get? name).map (Holding.renamed rename)
  handlers : second.handlers = first.handlers
  probes : second.probes = first.probes
  flags : second.flags = first.flags
  nextSerial : second.nextSerial = first.nextSerial
  nextId : ∀ more, rename (first.nextId + more) = second.nextId + more

/-- An effect mirrors another one. -/
structure Effect.Mirrors
    (rename : Nat → Nat)
    (names : List String)
    (first second : Effect) :
    Prop where
  session : first.session.Mirrors rename names second.session
  reply : second.reply = first.reply.renamed rename
  answer : second.answer = first.answer
  notes : second.notes = first.notes
  sequel : second.sequel = first.sequel.renamed rename

/-- A machine mirrors another one: it plans the same work. -/
structure Machine.Mirrors
    (rename : Nat → Nat)
    (names : List String)
    (first second : Machine) :
    Prop where
  session : first.session.Mirrors rename names second.session
  hand : second.hand = first.hand.map (Buffered.renamed rename)
  tasks : second.tasks = first.tasks
  trace : second.trace = first.trace.map (Event.renamed rename)

/-! ## Operations do not look at identities -/

namespace Buffered

variable {η : Type} (rename : Nat → Nat) (reply : Buffered η)

theorem render_renamed :
    (reply.renamed rename).render = reply.render.renamed rename := by
  have same :
      (reply.renamed rename).wantsRendering = reply.wantsRendering :=
    rfl
  simp only [render, same]
  split <;> rfl

theorem withTag_renamed (tag : String) :
    (reply.renamed rename).withTag tag =
      (reply.withTag tag).renamed rename := by
  simp only [withTag]
  split <;> rfl

theorem tagged_renamed :
    (reply.renamed rename).tagged = reply.tagged.renamed rename := by
  have same : (reply.renamed rename).tag? = reply.tag? := rfl
  simp only [tagged, same]
  split
  · exact reply.withTag_renamed rename _
  · rfl

theorem revalidate_renamed :
    (reply.renamed rename).revalidate =
      ⟨reply.revalidate.value.renamed rename, reply.revalidate.notes⟩ := by
  have same : (reply.renamed rename).tag? = reply.tag? := rfl
  have expected : (reply.renamed rename).expected = reply.expected := rfl
  simp only [revalidate, same, expected]
  split
  · rfl
  · next tag current =>
      rw [reply.withTag_renamed rename tag]
      split <;> rfl

theorem finalize_renamed :
    (reply.renamed rename).finalize =
      ⟨(reply.finalize.value.1.renamed rename, reply.finalize.value.2),
        reply.finalize.notes⟩ := by
  have same :
      (reply.tagged.renamed rename).completed = reply.tagged.completed :=
    rfl
  simp only [finalize, reply.tagged_renamed rename, same]
  split <;> rfl

end Buffered

/-! ## Steps mirror each other -/

namespace Effect.Mirrors

variable
    {rename : Nat → Nat}
    {names : List String}
    {first second : Session}

theorem answering
    (mirrors : first.Mirrors rename names second)
    (reply : Response)
    (answer : Answer) :
    Mirrors rename names
      (.answering first reply answer)
      (.answering second (reply.renamed rename) answer) :=
  ⟨mirrors, rfl, rfl, rfl, rfl⟩

theorem changing
    (mirrors : first.Mirrors rename names second)
    {changed image : Response}
    (same : image = changed.renamed rename) :
    Mirrors rename names (.changing first changed) (.changing second image) :=
  ⟨mirrors, same, rfl, rfl, rfl⟩

theorem noting
    (mirrors : first.Mirrors rename names second)
    {outcome image : Noted Response}
    (same : image = ⟨outcome.value.renamed rename, outcome.notes⟩) :
    Mirrors rename names (.noting first outcome) (.noting second image) := by
  rw [same]
  exact ⟨mirrors, rfl, rfl, rfl, rfl⟩

theorem attempting
    (mirrors : first.Mirrors rename names second)
    (reply : Response)
    {outcome image : Except Failure Response}
    (same : image = outcome.map (Buffered.renamed rename)) :
    Mirrors rename names
      (.attempting first reply outcome)
      (.attempting second (reply.renamed rename) image) := by
  rw [same]
  cases outcome with
  | ok changed => exact changing mirrors rfl
  | error failure => exact answering mirrors reply _

theorem editing
    (mirrors : first.Mirrors rename names second)
    (reply : Response)
    (edited : Option Payload) :
    Mirrors rename names
      (.editing first reply edited)
      (.editing second (reply.renamed rename) edited) := by
  cases edited with
  | some payload => exact ⟨mirrors, rfl, rfl, rfl, rfl⟩
  | none => exact answering mirrors reply _

end Effect.Mirrors

/-- Firing carries off no reply. -/
theorem Sequel.renamed_firing
    (rename : Nat → Nat)
    (handler? : Option Handler) :
    (firing handler?).renamed rename = firing handler? := by
  cases handler? with
  | none => rfl
  | some handler => rfl

/-- A step on a mirrored reply mirrors the step. -/
theorem Step.mirrors_apply
    {rename : Nat → Nat}
    {names : List String}
    {first second : Session}
    (mirrors : first.Mirrors rename names second)
    (reply : Response)
    (step : Step) :
    Effect.Mirrors rename names
      (step.apply first reply)
      (step.apply second (reply.renamed rename)) := by
  cases step with
  | setField name octets =>
      apply Effect.Mirrors.attempting mirrors
      simp only [Buffered.setField, Buffered.renamed]
      cases reply.message.setField name octets <;> rfl
  | setStatus code =>
      apply Effect.Mirrors.attempting mirrors
      simp only [Buffered.setStatus, Buffered.renamed]
      cases reply.message.setStatus code <;> rfl
  | setVersion | append | setBody | keepAlive | setPayload =>
      exact .changing mirrors rfl
  | expect tag =>
      exact .changing mirrors rfl
  | render => exact .changing mirrors (reply.render_renamed rename)
  | frame =>
      have same :
          (reply.renamed rename).message.frameFailure? =
            reply.message.frameFailure? :=
        rfl
      simp only [apply, same]
      split
      · exact ⟨mirrors, rfl, rfl, rfl, rfl⟩
      · exact .changing mirrors rfl
  | clear => exact .noting mirrors rfl
  | insertPayload => exact .editing mirrors reply _
  | pushPayload => exact .editing mirrors reply _
  | revalidate => exact .noting mirrors (reply.revalidate_renamed rename)
  | readField | readStatus | readKeepAlive | readTag | readCompleted
  | unsupported =>
      exact .answering mirrors reply _
  | readAlive =>
      simp only [apply, mirrors.flags]
      exact .answering mirrors reply _
  | finalize => exact ⟨mirrors, rfl, rfl, rfl, rfl⟩
  | setHandler name script =>
      simp only [apply, Session.setHandler, mirrors.nextSerial]
      refine .noting ?_ rfl
      exact { mirrors with nextSerial := rfl }
  | releaseHandler name =>
      simp only [apply, Session.releaseHandler_eq, mirrors.handlers]
      exact ⟨{ mirrors with handlers := rfl }, rfl, rfl, rfl, rfl⟩
  | invokeHandler name =>
      simp only [apply, Session.invokeHandler_eq, mirrors.handlers]
      refine ⟨{ mirrors with handlers := rfl }, rfl, rfl, rfl, ?_⟩
      exact (Sequel.renamed_firing rename _).symm
  | attachHandler name =>
      simp only [apply, Session.attachHandler_eq, mirrors.handlers]
      exact ⟨{ mirrors with handlers := rfl }, rfl, rfl, rfl, rfl⟩
  | setProbe flag =>
      simp only [apply, Session.setProbe, mirrors.nextSerial]
      refine .changing ?_ rfl
      exact { mirrors with nextSerial := rfl }
  | setFlag flag up =>
      simp only [apply, mirrors.flags]
      refine .changing ?_ rfl
      exact { mirrors with flags := rfl }
  | releaseProbe name =>
      simp only [apply, Session.releaseProbe_eq, mirrors.probes]
      exact ⟨{ mirrors with probes := rfl }, rfl, rfl, rfl, rfl⟩
  | attachProbe name =>
      simp only [apply, Session.attachProbe_eq, mirrors.probes]
      exact ⟨{ mirrors with probes := rfl }, rfl, rfl, rfl, rfl⟩
  | checkProbe name =>
      simp only [apply, Session.checkProbe_eq, mirrors.probes, mirrors.flags]
      exact .answering mirrors reply _
  | relocate slot =>
      have fresh : rename first.nextId = second.nextId := mirrors.nextId 0
      have later :
          ∀ more,
            rename (first.nextId + 1 + more) = second.nextId + 1 + more := by
        intro more
        have next := mirrors.nextId (1 + more)
        rw [← Nat.add_assoc, ← Nat.add_assoc] at next
        exact next
      refine ⟨{ mirrors with nextId := later }, ?_, rfl, rfl, rfl⟩
      simp only [apply, Session.relocate, Buffered.relocate, ← fresh]
      rfl

namespace Machine.Mirrors

variable
    {rename : Nat → Nat}
    {names : List String}
    {first second : Machine}

theorem note
    (mirrors : first.Mirrors rename names second)
    (notes : List Note) :
    (first.note notes).Mirrors rename names (second.note notes) := by
  refine { mirrors with trace := ?_ }
  simp only [Machine.note, mirrors.trace, List.map_append, List.map_map]
  rfl

theorem fire
    (mirrors : first.Mirrors rename names second)
    (handler : Handler) :
    (first.fire handler).Mirrors rename names (second.fire handler) := by
  simp only [Machine.fire, mirrors.hand]
  cases first.hand with
  | nil => exact mirrors
  | cons reply below =>
      simp only [List.map_cons, mirrors.tasks, mirrors.trace,
        mirrors.session.flags]
      refine ⟨mirrors.session, rfl, rfl, ?_⟩
      rw [List.map_append]
      rfl

theorem follow
    (mirrors : first.Mirrors rename names second)
    (sequel : Sequel) :
    (first.follow sequel).Mirrors rename names
      (second.follow (sequel.renamed rename)) := by
  cases sequel with
  | nothing => exact mirrors
  | finalize =>
      refine { mirrors with tasks := ?_ }
      simp only [Machine.follow, Sequel.renamed, mirrors.tasks]
  | fire handler => exact mirrors.fire handler
  | store slot reply =>
      refine { mirrors with hand := ?_, tasks := ?_ }
      · simp only [Machine.follow, Sequel.renamed, mirrors.hand, List.map_cons]
      · simp only [Machine.follow, Sequel.renamed, mirrors.tasks]

theorem finalize
    (mirrors : first.Mirrors rename names second) :
    first.finalize.Mirrors rename names second.finalize := by
  simp only [Machine.finalize, mirrors.hand]
  cases first.hand with
  | nil => exact mirrors
  | cons reply below =>
      simp only [List.map_cons, reply.finalize_renamed rename]
      have finished :
          (({ first with hand := reply.finalize.value.1 :: below }.note
              reply.finalize.notes).Mirrors rename names
            ({ second with
                hand :=
                  reply.finalize.value.1.renamed rename ::
                    below.map (Buffered.renamed rename) }.note
              reply.finalize.notes)) := by
        apply Mirrors.note
        exact { mirrors with hand := rfl }
      split
      · exact finished.fire _
      · exact finished

theorem play
    (mirrors : first.Mirrors rename names second)
    (handler : String)
    (script : Script) :
    (first.play handler script).Mirrors rename names
      (second.play handler script) := by
  cases script with
  | nil => exact mirrors
  | cons line rest =>
      rcases line with ⟨word, step⟩
      simp only [Machine.play, mirrors.hand]
      cases first.hand with
      | nil => exact mirrors
      | cons reply below =>
          have stepped := step.mirrors_apply mirrors.session reply
          simp only [List.map_cons, stepped.sequel, stepped.notes,
            stepped.answer, stepped.reply, mirrors.tasks]
          apply Mirrors.follow
          apply Mirrors.note
          exact ⟨stepped.session, rfl, rfl, mirrors.trace⟩

/-- Mirrored replies are shelved alike in a slot that is not listed. -/
theorem shelve
    (mirrors : first.Mirrors rename names second)
    {slot : String}
    (listed : slot ∉ names)
    (guarded : Bool) :
    (first.shelve slot guarded).Mirrors rename names
      (second.shelve slot guarded) := by
  simp only [Machine.shelve, mirrors.hand, mirrors.session.slots slot listed]
  cases first.hand with
  | nil => exact mirrors
  | cons reply below =>
      have stored :
          ({ first.session with
              slots := first.session.slots.put slot ⟨reply, guarded⟩ } :
            Session).Mirrors rename names
            { second.session with
              slots :=
                second.session.slots.put slot
                  ⟨reply.renamed rename, guarded⟩ } := by
        refine { mirrors.session with slots := ?_ }
        intro name other
        simp only [Registry.get?_put]
        split
        · rfl
        · exact mirrors.session.slots name other
      simp only [List.map_cons]
      rcases first.session.slots.get? slot with _ | ⟨former, formerGuarded⟩
      · exact { mirrors with session := stored, hand := rfl }
      · cases formerGuarded with
        | true =>
            simp only [Option.map_some, Holding.renamed, mirrors.tasks]
            exact { mirrors with session := stored, hand := rfl, tasks := rfl }
        | false =>
            exact { mirrors with session := stored, hand := rfl }

/-- A task is carried out alike if it names no slot that is listed. -/
theorem perform
    (mirrors : first.Mirrors rename names second)
    {task : Task}
    (unnamed : ∀ name ∈ names, name ∉ task.targets) :
    (first.perform task).Mirrors rename names (second.perform task) := by
  cases task with
  | finalize => exact mirrors.finalize
  | play handler script => exact mirrors.play handler script
  | report handler word answer =>
      refine { mirrors with trace := ?_ }
      simp only [Machine.perform, mirrors.trace, List.map_append]
      rfl
  | shelve slot guarded =>
      refine mirrors.shelve ?_ guarded
      intro listed
      exact unnamed slot listed (List.mem_singleton.mpr rfl)
  | discard =>
      refine { mirrors with hand := ?_ }
      simp only [Machine.perform, mirrors.hand, List.map_tail]

/--
Machines that mirror each other come to rest alike, and leave the listed slots
as they are, if no slot listed is one that the work could fill.
-/
theorem run
    (mirrors : first.Mirrors rename names second)
    (unnamed : ∀ name ∈ names, name ∉ first.targets) :
    first.run.Mirrors rename names second.run ∧
      ∀ name ∈ names,
        first.run.session.slots.get? name = first.session.slots.get? name ∧
          second.run.session.slots.get? name =
            second.session.slots.get? name := by
  induction first using Machine.run.induct generalizing second with
  | case1 first next stepped lighter inductionHypothesis =>
      obtain ⟨task, later, planned, rfl⟩ := Machine.exists_of_step? stepped
      have alike : second.tasks = task :: later := by
        rw [mirrors.tasks, planned]
      rw [Machine.run_of_step? stepped,
        Machine.run_of_step? (Machine.step?_of_cons alike)]
      have taskUnnamed : ∀ name ∈ names, name ∉ task.targets := by
        intro name listed named
        apply unnamed name listed
        rw [Machine.targets, planned]
        exact List.mem_append_right _ (List.mem_append_left _ named)
      have popped :
          ({ first with tasks := later } : Machine).Mirrors rename names
            { second with tasks := later } :=
        { mirrors with tasks := rfl }
      have nextUnnamed :
          ∀ name ∈ names,
            name ∉ (({ first with tasks := later } : Machine).perform
              task).targets := by
        intro name listed named
        exact
          unnamed name listed (Machine.targets_next_subset planned named)
      obtain ⟨rested, kept⟩ :=
        inductionHypothesis (popped.perform taskUnnamed) nextUnnamed
      refine ⟨rested, fun name listed => ?_⟩
      obtain ⟨left, right⟩ := kept name listed
      rw [left, right,
        Machine.get?_perform _ _ (taskUnnamed name listed),
        Machine.get?_perform _ _ (taskUnnamed name listed)]
      exact ⟨rfl, rfl⟩
  | case2 first resting =>
      have rested : second.step? = none := by
        rw [Machine.step?_eq_none_iff] at resting ⊢
        rw [mirrors.tasks, resting]
      rw [Machine.run_of_step?_none resting, Machine.run_of_step?_none rested]
      exact ⟨mirrors, fun name listed => ⟨rfl, rfl⟩⟩

end Machine.Mirrors

end Reply
