import Reply.Proofs.Session.Relocation

namespace Reply

/-!
# What relocation leaves unchanged

The journey of a reply from any session that a run comes to, compared with the
same steps asked where the reply is: answers, events, counters and everything
that is left are the same up to identities.  A reply that is taken, here or in a
script, leaves a blank one with an identity that no reply had before.
-/

/-! ## Counters -/

/-- The counter that an event increments, if it does. -/
def Event.counter? : Event → Option Counter
  | .noted (.counted counter) => some counter
  | _ => none

/-- The counters that events increment, in order. -/
def counters (trace : List Event) : List Counter :=
  trace.filterMap Event.counter?

theorem counters_renamed
    (rename : Nat → Nat)
    (trace : List Event) :
    counters (trace.map (Event.renamed rename)) = counters trace := by
  rw [counters, List.filterMap_map]
  congr 1
  funext event
  cases event <;> rfl

/-- Log records count nothing. -/
theorem counters_of_isLog
    {trace : List Event}
    (logs : ∀ event ∈ trace, event.IsLog) :
    counters trace = [] := by
  apply List.filterMap_eq_nil_iff.mpr
  intro event member
  obtain ⟨level, text, rfl⟩ := logs event member
  rfl

theorem counters_append (first second : List Event) :
    counters (first ++ second) = counters first ++ counters second :=
  List.filterMap_append

/-- All that is counted on a journey is counted at the legs that ask a step. -/
theorem counters_asked
    (legs : List Leg)
    (outcomes : List Outcome)
    (complete : outcomes.length = legs.length)
    (logs : ∀ event ∈ unasked legs outcomes, event.IsLog) :
    counters ((asked legs outcomes).flatMap Prod.snd) =
      counters (outcomes.flatMap Outcome.trace) := by
  induction legs generalizing outcomes with
  | nil =>
      rw [List.length_eq_zero_iff.mp complete]
      rfl
  | cons leg rest inductionHypothesis =>
      cases outcomes with
      | nil => contradiction
      | cons outcome later =>
          have restComplete := Nat.succ.inj complete
          cases asks : leg.asks with
          | true =>
              obtain ⟨answered, silent⟩ :=
                asked_cons_of_asks asks rest outcome later
              rw [silent] at logs
              rw [answered, List.flatMap_cons, List.flatMap_cons,
                counters_append, counters_append,
                inductionHypothesis later restComplete logs]
          | false =>
              obtain ⟨answered, relocated⟩ :=
                asked_cons_of_not_asks asks rest outcome later
              rw [relocated] at logs
              have nothing := counters_of_isLog fun event member =>
                logs event (List.mem_append_left _ member)
              rw [answered, List.flatMap_cons, counters_append, nothing,
                List.nil_append]
              exact
                inductionHypothesis later restComplete fun event member =>
                  logs event (List.mem_append_right _ member)

/-- There is one outcome for each leg of a journey. -/
theorem length_performAll_journey
    (session : Session)
    (slot : String)
    (legs : List Leg) :
    (session.performAll (journey slot legs)).length = legs.length := by
  induction legs generalizing session slot with
  | nil => rfl
  | cons leg rest inductionHypothesis =>
      exact congrArg Nat.succ (inductionHypothesis _ _)

/-! ## Identities of a run -/

/-- In every run the next identity is above that of every reply there was. -/
theorem Run.id_lt_nextId
    {turns : List Turn}
    {machine : Machine}
    (run : Run turns machine) :
    ∀ turn ∈ turns, ∀ former ∈ turn.after.replies,
      former.id < machine.session.nextId := by
  induction run with
  | start =>
      intro turn member
      contradiction
  | @order turns machine run rested command inductionHypothesis =>
      have counted := (command.changes_start machine.session).nextId_le
      intro turn member former alive
      rcases List.mem_append.mp member with earlier | now
      · exact
          Nat.lt_of_lt_of_le (inductionHypothesis turn earlier former alive)
            counted
      · rw [List.mem_singleton.mp now] at alive
        exact lasting_id_lt.run (run.order rested command) former alive
  | @work turns machine run task later planned inductionHypothesis =>
      have counted :=
        (Machine.changes_perform { machine with tasks := later } task).nextId_le
      intro turn member former alive
      rcases List.mem_append.mp member with earlier | now
      · exact
          Nat.lt_of_lt_of_le (inductionHypothesis turn earlier former alive)
            counted
      · rw [List.mem_singleton.mp now] at alive
        exact lasting_id_lt.run (run.work planned) former alive

/-! ## Transparency -/

/--
A journey whose slots are fresh: each is another one, holds nothing, and is named
by no step asked and by no script that is attached or released; nor do these name
the slot that the reply is lent out of while a step is carried out.
-/
structure FreshFor
    (session : Session)
    (slot : String)
    (legs : List Leg) :
    Prop where
  distinct : (slot :: legs.flatMap Leg.targets).Nodup
  free :
    ∀ target ∈ legs.flatMap Leg.targets, session.slots.get? target = none
  unnamed :
    ∀ name ∈ slot :: legs.flatMap Leg.targets,
      name ∉ session.targets ++ legs.flatMap Leg.named

/-- A session is its own mirror image. -/
theorem Session.Carries.refl
    {session : Session}
    {slot : String}
    {holding : Holding}
    (present : session.slots.get? slot = some holding)
    {names : List String}
    (listed : slot ∈ names)
    (unnamed : ∀ name ∈ names, name ∉ session.targets) :
    session.Carries id names slot slot session := by
  refine
    ⟨⟨?_, rfl, rfl, rfl, rfl, fun _ => rfl⟩, unnamed, listed, listed,
      ⟨holding.reply, holding.guarded, holding.guarded, present, present⟩⟩
  intro name unlisted
  cases session.slots.get? name <;> rfl

/--
From any session that a run comes to, a reply can go on a journey through fresh
slots and guards.  Asked the same steps as if it stayed, it gives the same
answers and events, up to a renaming of identities that keeps those already
given; the relocations only write log records, so nothing fires or is counted on
their account.  In the end the reply, the other slots, the stores and the flags
are the same up to identities, and the slots it was taken out of hold blank
replies whose identities no other reply has.  Whatever reply of a run is taken,
in a script too, a reply with nothing in it and a new identity stays behind.
-/
theorem relocation_transparent :
    (∀ (turns : List Turn) (machine : Machine),
        Run turns machine →
        machine.tasks = [] →
        ∀ (slot : String) (holding : Holding),
          machine.session.slots.get? slot = some holding →
          ∀ legs : List Leg,
            FreshFor machine.session slot legs →
            ∃ rename : Nat → Nat,
              StrictMono rename ∧
                (∀ id < machine.session.nextId, rename id = id) ∧
                asked legs (machine.session.performAll (journey slot legs)) =
                  (machine.session.performAll (stay slot legs)).map
                    (Outcome.renamed rename) ∧
                (∀ event ∈
                    unasked legs
                      (machine.session.performAll (journey slot legs)),
                  ∃ level text, event = .noted (.logged level text)) ∧
                counters
                    ((machine.session.performAll
                      (journey slot legs)).flatMap Outcome.trace) =
                  counters
                    ((machine.session.performAll (stay slot legs)).flatMap
                      Outcome.trace) ∧
                (∃ reply guarded guardedThere,
                  (machine.session.afterAll (stay slot legs)).slots.get? slot =
                      some ⟨reply, guarded⟩ ∧
                    (machine.session.afterAll
                        (journey slot legs)).slots.get?
                        (destination slot legs) =
                      some ⟨{ reply with id := rename reply.id },
                        guardedThere⟩) ∧
                (machine.session.afterAll (stay slot legs)).Mirrors rename
                  (slot :: legs.flatMap Leg.targets)
                  (machine.session.afterAll (journey slot legs)) ∧
                (∀ name ∈ departures slot legs,
                  ∃ id guarded,
                    machine.session.nextId ≤ id ∧
                      (∀ other, rename other ≠ id) ∧
                      (machine.session.afterAll
                          (journey slot legs)).slots.get? name =
                        some ⟨.blank id, guarded⟩)) ∧
      (∀ (turns : List Turn) (machine : Machine),
        Run turns machine →
        ∀ (reply : Response) (target : String),
          ((Step.relocate target).apply machine.session reply).reply =
              { id := machine.session.nextId
                message :=
                  { status := .ok
                    version := .http11
                    headers := .empty
                    body := "" }
                payload := .null
                completed := false
                expected := none
                handler := none
                probe := none } ∧
            ∀ turn ∈ turns, ∀ former ∈ turn.after.replies,
              former.id < machine.session.nextId) := by
  refine ⟨?journey, ?blank⟩
  case journey =>
    intro turns machine run rested slot holding present legs fresh
    have inSlots :
        ∀ reply ∈ machine.session.replies, reply ∈ machine.replies :=
      fun reply member => List.mem_append_right _ member
    have carries :
        machine.session.Carries id (slot :: legs.flatMap Leg.targets) slot slot
          machine.session := by
      refine .refl present List.mem_cons_self ?_
      intro name listed named
      exact fresh.unnamed name listed (List.mem_append_left _ named)
    obtain ⟨rename, transparent⟩ :=
      carries.journey legs strictMono_id
        (fun reply member => lasting_id_lt.run run reply (inSlots reply member))
        (fun reply member => run.settled reply (inSlots reply member))
        (fun target member => List.mem_cons_of_mem _ member)
        fresh.distinct fresh.free
        (fun name listed named =>
          fresh.unnamed name listed (List.mem_append_right _ named))
    have counted :=
      counters_asked legs _ (length_performAll_journey _ slot legs)
        transparent.silent
    refine
      ⟨rename, transparent.strict, transparent.agrees, transparent.alike,
        transparent.silent, ?_, transparent.carries.reply,
        transparent.carries.mirrors, transparent.blanks⟩
    have renamed :=
      counters_renamed rename
        ((machine.session.performAll (stay slot legs)).flatMap Outcome.trace)
    rw [List.map_flatMap] at renamed
    rw [← counted, transparent.alike, List.flatMap_map, ← renamed]
    rfl
  case blank =>
    intro turns machine run reply target
    exact ⟨rfl, run.id_lt_nextId⟩

/--
A reply with a handler that is taken, written to, guarded and moved before it is
finalized does what it does in its place.
-/
theorem relocation_transparent_three_slots :
    let legs : List Leg :=
      [.ask (.setHandler "h" [("append", .append "x")]), .take "b",
        .ask (.append "y"), .guard, .unguard, .guard, .move "c",
        .ask .finalize]
    ∃ turns machine,
      Run turns machine ∧
        machine.tasks = [] ∧
        FreshFor machine.session "a" legs ∧
        ∃ rename : Nat → Nat,
          StrictMono rename ∧
            asked legs (machine.session.performAll (journey "a" legs)) =
              (machine.session.performAll (stay "a" legs)).map
                (Outcome.renamed rename) := by
  intro legs
  have made := Run.start.order rfl (.create "a")
  have stored := made.work rfl
  have fresh :
      FreshFor
        ⟨.put .empty "a" ⟨.blank 0, false⟩, .empty, .empty, .empty, 1, 0⟩ "a"
        legs :=
    { distinct := by decide
      free := by
        intro target member
        rcases List.mem_cons.mp member with rfl | member
        · rfl
        · rw [List.mem_singleton.mp member]
          rfl
      unnamed := by
        intro name listed named
        contradiction }
  obtain ⟨rename, strict, -, alike, -⟩ :=
    relocation_transparent.1 _ _ stored rfl "a" _ rfl legs fresh
  exact ⟨_, _, stored, rfl, fresh, rename, strict, alike⟩

end Reply
