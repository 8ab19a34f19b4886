import Reply.Proofs.Session.Transparency

namespace Reply

/-!
# Commands on sessions that mirror each other

Two sessions that are the same up to identities answer every command alike, and are
the same up to identities afterwards.
-/

/-- What is delivered does not depend on the identity. -/
theorem Buffered.deliver_renamed
    {η : Type}
    (rename : Nat → Nat)
    (reply : Buffered η) :
    (reply.renamed rename).deliver = reply.deliver := by
  have rendered :
      (reply.renamed rename).render.message = reply.render.message := by
    rw [reply.render_renamed rename]
    rfl
  simp only [deliver, rendered]

namespace Session.Mirrors

variable {rename : Nat → Nat} {first second : Session}

/-- Each slot of the image holds the image of what the slot holds. -/
theorem slot_eq
    (mirrors : first.Mirrors rename [] second)
    (slot : String) :
    second.slots.get? slot =
      (first.slots.get? slot).map (Holding.renamed rename) :=
  mirrors.slots slot List.not_mem_nil

/-- Emptying a slot of both leaves sessions that mirror each other. -/
theorem emptied_both
    (mirrors : first.Mirrors rename [] second)
    (slot : String) :
    (first.emptied slot).Mirrors rename [] (second.emptied slot) := by
  refine { mirrors with slots := ?_ }
  intro name _
  simp only [Session.emptied, Registry.get?_erase]
  split
  · rfl
  · exact mirrors.slot_eq name

variable {names : List String}

/-- One more reply on each side leaves sessions that mirror each other. -/
theorem grown
    (mirrors : first.Mirrors rename names second) :
    first.grown.Mirrors rename names second.grown := by
  refine { mirrors with nextId := ?_ }
  intro more
  have next := mirrors.nextId (1 + more)
  rw [← Nat.add_assoc, ← Nat.add_assoc] at next
  exact next

/-- The next identities correspond. -/
theorem next_eq (mirrors : first.Mirrors rename names second) :
    rename first.nextId = second.nextId :=
  mirrors.nextId 0

theorem atRest (mirrors : first.Mirrors rename names second) :
    (Machine.atRest first).Mirrors rename names (.atRest second) :=
  ⟨mirrors, rfl, rfl, rfl⟩

theorem holding
    (mirrors : first.Mirrors rename names second)
    {reply image : Response}
    (same : image = reply.renamed rename)
    (tasks : List Task) :
    (Machine.holding first reply tasks).Mirrors rename names
      (.holding second image tasks) :=
  ⟨mirrors, by rw [same]; rfl, rfl, rfl⟩

end Session.Mirrors

/-- More work for later leaves machines that mirror each other. -/
theorem Machine.Mirrors.withLater
    {rename : Nat → Nat}
    {names : List String}
    {first second : Machine}
    (mirrors : first.Mirrors rename names second)
    (later : List Task) :
    (first.withLater later).Mirrors rename names (second.withLater later) := by
  refine { mirrors with tasks := ?_ }
  rw [Machine.withLater, Machine.withLater, mirrors.tasks]

/-! ## Starting commands -/

/-- An answer is the same and the work left is mirrored. -/
def StartsAlike
    (rename : Nat → Nat)
    (first second : Answer × Machine) :
    Prop :=
  second.1 = first.1 ∧ first.2.Mirrors rename [] second.2

section

variable
    {rename : Nat → Nat}
    {first second : Session}
    (mirrors : first.Mirrors rename [] second)

include mirrors

/-- A step asked on both sides starts alike. -/
theorem Session.Mirrors.ask
    (slot : String)
    (content : Holding)
    (step : Step) :
    StartsAlike rename
      (first.ask slot content step)
      (second.ask slot (content.renamed rename) step) := by
  have stepped := step.mirrors_apply (mirrors.emptied_both slot) content.reply
  obtain ⟨core, later⟩ := stepped.core
  rw [Session.ask_eq, Session.ask_eq]
  refine ⟨stepped.answer, ?_⟩
  simp only [Holding.renamed, later]
  exact core.withLater _

/-- An action on the contents of a slot starts alike on both sides. -/
theorem Action.mirrors_start
    (slot : String)
    (content : Holding)
    (action : Action) :
    StartsAlike rename
      (action.start first slot content)
      (action.start second slot (content.renamed rename)) := by
  have emptied := mirrors.emptied_both slot
  have sameGuard : (content.renamed rename).guarded = content.guarded := rfl
  cases action with
  | drop =>
      simp only [start, Session.letGo, sameGuard]
      split
      · exact ⟨rfl, emptied.holding rfl _⟩
      · exact ⟨rfl, emptied.atRest⟩
  | move target => exact ⟨rfl, emptied.holding rfl _⟩
  | guard =>
      simp only [start, sameGuard]
      split
      · exact ⟨rfl, mirrors.atRest⟩
      · exact ⟨rfl, emptied.holding rfl _⟩
  | unguard =>
      simp only [start, sameGuard]
      split
      · exact ⟨rfl, (emptied.grown.holding rfl _).note _⟩
      · exact ⟨rfl, mirrors.atRest⟩
  | release =>
      simp only [start, sameGuard]
      split
      · exact ⟨rfl, mirrors.atRest⟩
      · exact ⟨rfl, emptied.atRest⟩
  | deliver =>
      have same :
          (content.renamed rename).reply.deliver = content.reply.deliver :=
        content.reply.deliver_renamed rename
      simp only [start, sameGuard, same]
      split
      · exact ⟨rfl, mirrors.atRest⟩
      · exact ⟨rfl, emptied.atRest.note _⟩
  | ask step => exact mirrors.ask slot content step

/-- A command starts alike on both sides. -/
theorem Command.mirrors_start (command : Command) :
    StartsAlike rename (command.start first) (command.start second) := by
  cases command with
  | create slot =>
      refine ⟨rfl, mirrors.grown.holding ?_ _⟩
      rw [← mirrors.next_eq]
      rfl
  | adopt slot message =>
      refine ⟨rfl, mirrors.grown.holding ?_ _⟩
      rw [← mirrors.next_eq]
      rfl
  | act slot action =>
      simp only [start, mirrors.slot_eq slot]
      cases first.slots.get? slot with
      | none => exact ⟨rfl, mirrors.atRest⟩
      | some content => exact action.mirrors_start mirrors slot content

end

/-! ## Carrying commands out -/

namespace Session.Mirrors

variable {rename : Nat → Nat} {first second : Session}

/-- A command is carried out alike on both sides. -/
theorem perform
    (mirrors : first.Mirrors rename [] second)
    (command : Command) :
    ((second.perform command).answer, (second.perform command).trace) =
        (first.perform command).renamed rename ∧
      (first.perform command).session.Mirrors rename []
        (second.perform command).session := by
  obtain ⟨answer, started⟩ := command.mirrors_start mirrors
  have unnamed :
      ∀ name ∈ ([] : List String),
        name ∉ (command.start first).2.targets := by
    intro name listed
    contradiction
  obtain ⟨rested, -⟩ := started.run unnamed
  exact ⟨Prod.ext answer rested.trace, rested.session⟩

/-- Commands one after the other are carried out alike on both sides. -/
theorem performAll
    (mirrors : first.Mirrors rename [] second)
    (commands : List Command) :
    ((second.performAll commands).map fun outcome =>
        (outcome.answer, outcome.trace)) =
        (first.performAll commands).map (Outcome.renamed rename) ∧
      (first.afterAll commands).Mirrors rename []
        (second.afterAll commands) := by
  induction commands generalizing first second with
  | nil => exact ⟨rfl, mirrors⟩
  | cons command rest inductionHypothesis =>
      obtain ⟨alike, after⟩ := mirrors.perform command
      obtain ⟨restAlike, last⟩ := inductionHypothesis after
      refine ⟨?_, last⟩
      simp only [Session.performAll, List.map_cons, alike, restAlike]

end Session.Mirrors

end Reply
