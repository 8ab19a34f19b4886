import Mathlib.Order.Monotone.Basic
import Reply.Proofs.Session.Carrying

namespace Reply

/-!
# Relocation is transparent

A reply can be taken into a fresh slot, moved there, guarded and taken out of its
guard, at any time and in any order.  Asked the same steps on its way, it answers
and notes the same and ends up the same, up to identities.  What it leaves behind
when it is taken is a blank reply.
-/

/-! ## What a relocation does -/

namespace Machine

theorem run_of_rested
    {machine : Machine}
    (rested : machine.tasks = []) :
    machine.run = machine :=
  run_of_step?_none (step?_eq_none_iff.mpr rested)

/-- A reply goes into a free slot, and the work after that is carried out. -/
theorem run_of_shelve
    {machine : Machine}
    {reply : Response}
    {below : List Response}
    {slot : String}
    {guarded : Bool}
    {later : List Task}
    (planned : machine.tasks = .shelve slot guarded :: later)
    (hand : machine.hand = reply :: below)
    (free : machine.session.slots.get? slot = none) :
    machine.run =
      ({ machine with
        session :=
          { machine.session with
            slots := machine.session.slots.put slot ⟨reply, guarded⟩ }
        hand := below
        tasks := later } : Machine).run := by
  rw [run_of_step? (step?_of_cons planned), perform]
  exact
    congrArg run
      (shelve_of_free
        (show ({ machine with tasks := later } : Machine).hand = reply :: below
          from hand)
        free guarded)

end Machine

namespace Session

variable
    {session : Session}
    {slot target : String}
    {content : Holding}

theorem get?_emptied_self : (session.emptied slot).slots.get? slot = none := by
  rw [emptied, Registry.get?_erase, if_pos rfl]

theorem get?_emptied_free
    (free : session.slots.get? target = none) :
    (session.emptied slot).slots.get? target = none := by
  rw [emptied, Registry.get?_erase, free, ite_self]

/-- Taking a reply leaves a blank one and puts the reply into its new slot. -/
theorem perform_take
    (present : session.slots.get? slot = some content)
    (settled : content.reply.Settled)
    (other : target ≠ slot)
    (free : session.slots.get? target = none) :
    session.perform (.act slot (.ask (.relocate target))) =
      ⟨{ session with
          slots :=
            ((session.slots.erase slot).put slot
              ⟨.blank session.nextId, content.guarded⟩).put target
              ⟨content.reply, false⟩
          nextId := session.nextId + 1 },
        .done,
        [.noted (.logged .debug "Moving response containers")]⟩ := by
  have effect :
      (Step.relocate target).apply (session.emptied slot) content.reply =
        ⟨(session.emptied slot).grown, .blank session.nextId, .done,
          [.logged .debug "Moving response containers"],
          .store target content.reply⟩ := by
    have moved := settled.relocate_eq (session.emptied slot).nextId
    simp only [Step.apply, relocate, moved]
    rfl
  have targetFree :
      ((session.emptied slot).slots.put slot
          ⟨.blank session.nextId, content.guarded⟩).get? target =
        none := by
    rw [Registry.get?_put, if_neg other, get?_emptied_free free]
  have started :
      (Command.act slot (.ask (.relocate target))).start session =
        (.done,
          { session := (session.emptied slot).grown
            hand := [.blank session.nextId, content.reply]
            tasks :=
              [.shelve slot content.guarded, .shelve target false]
            trace := [.noted (.logged .debug "Moving response containers")] }) := by
    simp only [Command.start, present, Action.start, ask, effect]
    rfl
  simp only [perform, started]
  rw [Machine.run_of_shelve rfl rfl get?_emptied_self,
    Machine.run_of_shelve rfl rfl targetFree, Machine.run_of_rested rfl]
  rfl

/-- Moving a reply empties its slot and fills the new one. -/
theorem perform_move
    (present : session.slots.get? slot = some content)
    (free : session.slots.get? target = none) :
    session.perform (.act slot (.move target)) =
      ⟨{ session with
          slots :=
            (session.slots.erase slot).put target
              ⟨content.reply, content.guarded⟩ },
        .done, []⟩ := by
  simp only [perform, Command.start, present, Action.start]
  rw [Machine.run_of_shelve rfl rfl (get?_emptied_free free),
    Machine.run_of_rested rfl]
  rfl

/-- Guarding a plain reply keeps it in its slot. -/
theorem perform_guard
    (present : session.slots.get? slot = some content) :
    session.perform (.act slot .guard) =
      if content.guarded then
        ⟨session, .refused .unsupported, []⟩
      else
        ⟨{ session with
            slots := (session.slots.erase slot).put slot ⟨content.reply, true⟩ },
          .done, []⟩ := by
  simp only [perform, Command.start, present, Action.start]
  by_cases guarded : content.guarded = true
  · simp only [if_pos guarded]
    rw [Machine.run_of_rested rfl]
    rfl
  · simp only [if_neg guarded]
    rw [Machine.run_of_shelve rfl rfl get?_emptied_self,
      Machine.run_of_rested rfl]
    rfl

/-- Taking a reply out of its guard keeps it in its slot. -/
theorem perform_unguard
    (present : session.slots.get? slot = some content)
    (settled : content.reply.Settled) :
    session.perform (.act slot .unguard) =
      if content.guarded then
        ⟨{ session with
            slots :=
              (session.slots.erase slot).put slot ⟨content.reply, false⟩
            nextId := session.nextId + 1 },
          .done,
          [.noted (.logged .debug "Moving response containers")]⟩
      else
        ⟨session, .refused .unsupported, []⟩ := by
  have moved := settled.relocate_eq session.nextId
  have free : (session.emptied slot).grown.slots.get? slot = none :=
    get?_emptied_self
  simp only [perform, Command.start, present, Action.start]
  by_cases guarded : content.guarded = true
  · simp only [if_pos guarded, moved]
    rw [Machine.run_of_shelve rfl rfl free, Machine.run_of_rested rfl]
    rfl
  · simp only [if_neg guarded]
    rw [Machine.run_of_rested rfl]
    rfl

end Session

/-! ## Journeys -/

/-- One leg of a journey: a step asked of the reply, or a relocation. -/
inductive Leg
  | ask (step : Step)
  | take (target : String)
  | move (target : String)
  | guard
  | unguard

namespace Leg

/-- What a leg does to the slot that the reply is in. -/
def action : Leg → Action
  | ask step => .ask step
  | take target => .ask (.relocate target)
  | move target => .move target
  | guard => .guard
  | unguard => .unguard

/-- Whether a leg asks a step. -/
def asks : Leg → Bool
  | ask _ => true
  | _ => false

/-- Whether a leg takes the reply and leaves a blank one. -/
def takes : Leg → Bool
  | take _ => true
  | _ => false

/-- The other slot that a leg brings the reply to, if it does. -/
def targets : Leg → List String
  | take target => [target]
  | move target => [target]
  | _ => []

/-- Where the reply is after a leg. -/
def arrival (slot : String) : Leg → String
  | take target => target
  | move target => target
  | _ => slot

/-- A leg leaves the reply where it was or brings it to its new slot. -/
theorem arrival_eq (slot : String) (leg : Leg) :
    leg.arrival slot = slot ∨ leg.arrival slot ∈ leg.targets := by
  cases leg with
  | take | move => exact Or.inr (List.mem_singleton.mpr rfl)
  | ask | guard | unguard => exact Or.inl rfl

/-- A leg that takes the reply brings it to its new slot. -/
theorem arrival_mem
    {slot : String}
    {leg : Leg}
    (takes : leg.takes = true) :
    leg.arrival slot ∈ leg.targets := by
  cases leg with
  | take => exact List.mem_singleton.mpr rfl
  | ask | move | guard | unguard => contradiction

/-- The slots that the step of a leg names. -/
def named : Leg → List String
  | ask step => step.targets
  | _ => []

end Leg

/-- The commands of a journey that starts from a slot. -/
def journey (slot : String) : List Leg → List Command
  | [] => []
  | leg :: rest => .act slot leg.action :: journey (leg.arrival slot) rest

/-- Where a journey that starts from a slot ends. -/
def destination (slot : String) (legs : List Leg) : String :=
  legs.foldl Leg.arrival slot

/-- The commands that ask the same steps of a reply that stays in its slot. -/
def stay (slot : String) : List Leg → List Command
  | [] => []
  | .ask step :: rest => .act slot (.ask step) :: stay slot rest
  | _ :: rest => stay slot rest

/-- A relocation is nothing to a reply that stays. -/
theorem stay_of_not_asks
    (slot : String)
    {leg : Leg}
    (relocates : leg.asks = false)
    (rest : List Leg) :
    stay slot (leg :: rest) = stay slot rest := by
  cases leg with
  | ask step => contradiction
  | take | move | guard | unguard => rfl

/-- An event that is no more than a log record. -/
def Event.IsLog (event : Event) : Prop :=
  ∃ level text, event = .noted (.logged level text)

/--
A relocation changes nothing but slots and the count of identities: the reply is
in its new slot, and all slots but that and the old one are as they were.
-/
theorem Session.perform_relocation
    {session : Session}
    {slot : String}
    {content : Holding}
    (present : session.slots.get? slot = some content)
    (settled : content.reply.Settled)
    {leg : Leg}
    (relocates : leg.asks = false)
    (other : slot ∉ leg.targets)
    (free : ∀ target ∈ leg.targets, session.slots.get? target = none) :
    ∃ slots extra guarded,
      (session.perform (.act slot leg.action)).session =
          { session with slots := slots, nextId := session.nextId + extra } ∧
        (∀ event ∈ (session.perform (.act slot leg.action)).trace,
          event.IsLog) ∧
        slots.get? (leg.arrival slot) = some ⟨content.reply, guarded⟩ ∧
        (∀ name, name ≠ slot → name ∉ leg.targets →
          slots.get? name = session.slots.get? name) ∧
        (leg.takes = true →
          extra = 1 ∧
            slots.get? slot =
              some ⟨.blank session.nextId, content.guarded⟩) := by
  cases leg with
  | ask step => contradiction
  | take target =>
      have notSlot : target ≠ slot := by
        intro same
        exact other (List.mem_singleton.mpr same.symm)
      have taken :=
        perform_take present settled notSlot
          (free target (List.mem_singleton.mpr rfl))
      simp only [Leg.action, Leg.arrival, taken]
      refine ⟨_, 1, false, rfl, ?_, ?_, ?_, ?_⟩
      · intro event member
        exact ⟨_, _, List.mem_singleton.mp member⟩
      · rw [Registry.get?_put, if_pos rfl]
      · intro name notSlot notTarget
        rw [Registry.get?_put,
          if_neg fun same => notTarget (List.mem_singleton.mpr same)]
        exact session.slots.get?_put_erase notSlot notSlot _
      · intro takes
        refine ⟨rfl, ?_⟩
        rw [Registry.get?_put, if_neg (Ne.symm notSlot), Registry.get?_put,
          if_pos rfl]
  | move target =>
      have moved :=
        perform_move present (free target (List.mem_singleton.mpr rfl))
      simp only [Leg.action, Leg.arrival, moved]
      refine ⟨_, 0, content.guarded, rfl, ?_, ?_, ?_, by simp [Leg.takes]⟩
      · intro event member
        contradiction
      · rw [Registry.get?_put, if_pos rfl]
      · intro name notSlot notTarget
        refine session.slots.get?_put_erase notSlot ?_ _
        exact fun same => notTarget (List.mem_singleton.mpr same)
  | guard =>
      simp only [Leg.action, Leg.arrival, perform_guard present]
      by_cases guarded : content.guarded = true
      · simp only [if_pos guarded]
        refine
          ⟨session.slots, 0, content.guarded, rfl, ?_, present, ?_,
            by simp [Leg.takes]⟩
        · intro event member
          contradiction
        · intro name notSlot notTarget
          rfl
      · simp only [if_neg guarded]
        refine ⟨_, 0, true, rfl, ?_, ?_, ?_, by simp [Leg.takes]⟩
        · intro event member
          contradiction
        · rw [Registry.get?_put, if_pos rfl]
        · intro name notSlot notTarget
          exact session.slots.get?_put_erase notSlot notSlot _
  | unguard =>
      simp only [Leg.action, Leg.arrival, perform_unguard present settled]
      by_cases guarded : content.guarded = true
      · simp only [if_pos guarded]
        refine ⟨_, 1, false, rfl, ?_, ?_, ?_, by simp [Leg.takes]⟩
        · intro event member
          exact ⟨_, _, List.mem_singleton.mp member⟩
        · rw [Registry.get?_put, if_pos rfl]
        · intro name notSlot notTarget
          exact session.slots.get?_put_erase notSlot notSlot _
      · simp only [if_neg guarded]
        refine
          ⟨session.slots, 0, content.guarded, rfl, ?_, present, ?_,
            by simp [Leg.takes]⟩
        · intro event member
          contradiction
        · intro name notSlot notTarget
          rfl

/-! ## Identities after a relocation -/

/-- A renaming that leaves out some more identities from a bound on. -/
def shifted (rename : Nat → Nat) (bound extra id : Nat) : Nat :=
  if id < bound then rename id else rename id + extra

/-- Leaving out more identities keeps the order. -/
theorem strictMono_shifted
    {rename : Nat → Nat}
    (strict : StrictMono rename)
    (bound extra : Nat) :
    StrictMono (shifted rename bound extra) := by
  intro first second less
  have image := strict less
  unfold shifted
  split <;> split <;> omega

/-- Leaving out more identities makes none smaller. -/
theorem le_shifted
    (rename : Nat → Nat)
    (bound extra id : Nat) :
    rename id ≤ shifted rename bound extra id := by
  unfold shifted
  split <;> omega

theorem Buffered.renamed_congr
    {rename renamed : Nat → Nat}
    {reply : Response}
    (agree : renamed reply.id = rename reply.id) :
    reply.renamed renamed = reply.renamed rename := by
  rw [Buffered.renamed, Buffered.renamed, agree]

theorem Event.renamed_congr
    {rename renamed : Nat → Nat}
    {event : Event}
    (agree :
      ∀ reply, event.reply? = some reply → renamed reply.id = rename reply.id) :
    event.renamed renamed = event.renamed rename := by
  cases event with
  | noted note => rfl
  | fired serial name reply alive =>
      simp only [Event.renamed, Buffered.renamed_congr (agree reply rfl)]
  | reported handler word answer => rfl

namespace Session.Carries

variable
    {rename : Nat → Nat}
    {names : List String}
    {home here : String}
    {first second : Session}

/--
The image may go to another slot that is listed, and later identities may
correspond in another way.
-/
theorem moved
    (carries : first.Carries rename names home here second)
    (given : first.Every fun count reply => reply.id < count)
    {renamed : Nat → Nat}
    (agree : ∀ id < first.nextId, renamed id = rename id)
    {there : String}
    (listed : there ∈ names)
    (guarded : Bool)
    {slots : Registry String Holding}
    {nextId : Nat}
    (next : ∀ more, renamed (first.nextId + more) = nextId + more)
    (kept : ∀ name ∉ names, slots.get? name = second.slots.get? name)
    (arrived :
      ∀ content, second.slots.get? here = some content →
        slots.get? there = some ⟨content.reply, guarded⟩) :
    first.Carries renamed names home there
      { second with slots := slots, nextId := nextId } := by
  have agreeAt :
      ∀ name holding, first.slots.get? name = some holding →
        holding.reply.renamed renamed = holding.reply.renamed rename := by
    intro name holding present
    exact Buffered.renamed_congr (agree _ (Lasting.found given present))
  obtain ⟨reply, guardedHome, guardedHere, atHome, atHere⟩ := carries.reply
  refine
    ⟨{ carries.mirrors with slots := ?_, nextId := next }, carries.unnamed,
      carries.homeListed, listed, ⟨reply, guardedHome, guarded, atHome, ?_⟩⟩
  · intro name unlisted
    rw [kept name unlisted, carries.mirrors.slots name unlisted]
    cases present : first.slots.get? name with
    | none => rfl
    | some holding =>
        simp only [Option.map_some, Holding.renamed,
          agreeAt name holding present]
  · rw [arrived _ atHere, agreeAt home _ atHome]

end Session.Carries

/-- What a relocation of the image comes to, seen from the reply that stays. -/
structure Leg.Unseen
    (rename renamed : Nat → Nat)
    (names : List String)
    (home here : String)
    (first second : Session)
    (leg : Leg) :
    Prop where
  strict : StrictMono renamed
  agrees : ∀ id < first.nextId, renamed id = rename id
  grows : ∀ id, rename id ≤ renamed id
  carries :
    first.Carries renamed names home (leg.arrival here)
      (second.perform (.act here leg.action)).session
  silent :
    ∀ event ∈ (second.perform (.act here leg.action)).trace, event.IsLog
  kept :
    ∀ name, name ≠ here → name ∉ leg.targets →
      (second.perform (.act here leg.action)).session.slots.get? name =
        second.slots.get? name
  blank :
    leg.takes = true →
      (∀ id ≥ first.nextId, second.nextId < renamed id) ∧
        ∃ guarded,
          (second.perform (.act here leg.action)).session.slots.get? here =
            some ⟨.blank second.nextId, guarded⟩

/--
A relocation of the image brings it to its new slot, fires and counts nothing,
and leaves all other slots as they are.
-/
theorem Session.Carries.relocate
    {rename : Nat → Nat}
    {names : List String}
    {home here : String}
    {first second : Session}
    (carries : first.Carries rename names home here second)
    (strict : StrictMono rename)
    (given : first.Every fun count reply => reply.id < count)
    (settled : first.Every fun _ reply => reply.Settled)
    {leg : Leg}
    (relocates : leg.asks = false)
    (listed : ∀ target ∈ leg.targets, target ∈ names)
    (other : here ∉ leg.targets)
    (free : ∀ target ∈ leg.targets, second.slots.get? target = none) :
    ∃ renamed, leg.Unseen rename renamed names home here first second := by
  obtain ⟨reply, guardedHome, guarded, atHome, atHere⟩ := carries.reply
  have imageSettled : (reply.renamed rename).Settled :=
    Lasting.found settled atHome
  obtain ⟨slots, extra, guardedThere, session, logs, arrived, kept, blank⟩ :=
    perform_relocation atHere imageSettled relocates other free
  have arrivalListed : leg.arrival here ∈ names := by
    cases leg with
    | take target | move target =>
        exact listed target (List.mem_singleton.mpr rfl)
    | ask | guard | unguard => exact carries.hereListed
  have next :
      ∀ more,
        shifted rename first.nextId extra (first.nextId + more) =
          second.nextId + extra + more := by
    intro more
    have image := carries.mirrors.nextId more
    rw [shifted, if_neg (by omega)]
    omega
  refine
    ⟨shifted rename first.nextId extra,
      { strict := strictMono_shifted strict _ _
        agrees := fun id below => if_pos below
        grows := le_shifted rename _ _
        carries := ?_
        silent := logs
        kept := ?_
        blank := ?_ }⟩
  · rw [session]
    refine
      carries.moved given (fun id below => if_pos below) arrivalListed
        guardedThere next ?_ ?_
    · intro name unlisted
      refine kept name (fun same => unlisted (same ▸ carries.hereListed)) ?_
      intro isTarget
      exact unlisted (listed name isTarget)
    · intro content present
      rw [Option.some.inj (present.symm.trans atHere)]
      exact arrived
  · rw [session]
    exact kept
  · intro takes
    obtain ⟨one, atHere⟩ := blank takes
    rw [session]
    refine ⟨?_, guarded, atHere⟩
    intro id beyond
    obtain ⟨more, rfl⟩ := Nat.exists_eq_add_of_le beyond
    rw [next, one]
    omega

/-! ## Whole journeys -/

/-- The answers and events at the legs that ask a step. -/
def asked (legs : List Leg) (outcomes : List Outcome) :
    List (Answer × List Event) :=
  ((legs.zip outcomes).filter fun stage => stage.1.asks).map fun stage =>
    (stage.2.answer, stage.2.trace)

/-- The events at the legs that relocate. -/
def unasked (legs : List Leg) (outcomes : List Outcome) : List Event :=
  ((legs.zip outcomes).filter fun stage => !stage.1.asks).flatMap fun stage =>
    stage.2.trace

/-- A leg that asks a step has its answer and events on record. -/
theorem asked_cons_of_asks
    {leg : Leg}
    (asks : leg.asks = true)
    (legs : List Leg)
    (outcome : Outcome)
    (outcomes : List Outcome) :
    asked (leg :: legs) (outcome :: outcomes) =
        (outcome.answer, outcome.trace) :: asked legs outcomes ∧
      unasked (leg :: legs) (outcome :: outcomes) =
        unasked legs outcomes := by
  simp [asked, unasked, asks]

/-- A leg that relocates has its events on record. -/
theorem asked_cons_of_not_asks
    {leg : Leg}
    (relocates : leg.asks = false)
    (legs : List Leg)
    (outcome : Outcome)
    (outcomes : List Outcome) :
    asked (leg :: legs) (outcome :: outcomes) = asked legs outcomes ∧
      unasked (leg :: legs) (outcome :: outcomes) =
        outcome.trace ++ unasked legs outcomes := by
  simp [asked, unasked, relocates]

/-- The answer and the events of an outcome, with identities renamed. -/
def Outcome.renamed
    (rename : Nat → Nat)
    (outcome : Outcome) :
    Answer × List Event :=
  (outcome.answer, outcome.trace.map (Event.renamed rename))

/-- Renamings that agree on the identities given out rename an outcome alike. -/
theorem Session.renamed_perform_congr
    {session : Session}
    (given : session.Every fun count reply => reply.id < count)
    (command : Command)
    {rename renamed : Nat → Nat}
    (agree :
      ∀ id < (session.perform command).session.nextId,
        renamed id = rename id) :
    (session.perform command).renamed renamed =
      (session.perform command).renamed rename := by
  obtain ⟨-, fired⟩ := lasting_id_lt.command given command
  rw [Outcome.renamed, Outcome.renamed]
  congr 1
  apply List.map_congr_left
  intro event member
  apply Event.renamed_congr
  intro reply concerns
  exact agree _ (fired event member reply concerns)

/-- The slots that a journey takes the reply out of. -/
def departures (slot : String) : List Leg → List String
  | [] => []
  | leg :: rest =>
      (if leg.takes then [slot] else []) ++ departures (leg.arrival slot) rest

/-- What a journey of the image comes to, seen from the reply that stays. -/
structure Transparent
    (rename renamed : Nat → Nat)
    (names : List String)
    (home here : String)
    (first second : Session)
    (legs : List Leg) :
    Prop where
  strict : StrictMono renamed
  agrees : ∀ id < first.nextId, renamed id = rename id
  grows : ∀ id, rename id ≤ renamed id
  alike :
    asked legs (second.performAll (journey here legs)) =
      (first.performAll (stay home legs)).map (Outcome.renamed renamed)
  silent :
    ∀ event ∈ unasked legs (second.performAll (journey here legs)),
      event.IsLog
  carries :
    (first.afterAll (stay home legs)).Carries renamed names home
      (destination here legs) (second.afterAll (journey here legs))
  kept :
    ∀ name ∈ names, name ∉ here :: legs.flatMap Leg.targets →
      (second.afterAll (journey here legs)).slots.get? name =
        second.slots.get? name
  blanks :
    ∀ name ∈ departures here legs,
      ∃ id guarded,
        second.nextId ≤ id ∧
          (∀ other, renamed other ≠ id) ∧
          (second.afterAll (journey here legs)).slots.get? name =
            some ⟨.blank id, guarded⟩

namespace Transparent

variable
    {rename renamed shift : Nat → Nat}
    {names : List String}
    {home here : String}
    {first second : Session}
    {legs : List Leg}

theorem nil
    (carries : first.Carries rename names home here second)
    (strict : StrictMono rename) :
    Transparent rename rename names home here first second [] where
  strict := strict
  agrees _ _ := rfl
  grows _ := Nat.le_refl _
  alike := rfl
  silent := by
    intro event member
    contradiction
  carries := carries
  kept _ _ _ := rfl
  blanks := by
    intro name member
    contradiction

/-- A step asked before a transparent journey makes one. -/
theorem ask
    {step : Step}
    (given : first.Every fun count reply => reply.id < count)
    (asked : first.Asks rename names home here second step)
    (rest :
      Transparent rename renamed names home here
        (first.perform (.act home (.ask step))).session
        (second.perform (.act here (.ask step))).session legs) :
    Transparent rename renamed names home here first second
      (.ask step :: legs) where
  strict := rest.strict
  agrees id below :=
    rest.agrees id (Nat.lt_of_lt_of_le below (first.changes_perform _).nextId_le)
  grows := rest.grows
  alike := by
    have image :=
      Session.renamed_perform_congr given (.act home (.ask step)) rest.agrees
    rw [stay, Session.performAll, List.map_cons, image, ← rest.alike,
      Outcome.renamed, ← asked.answer, ← asked.trace]
    rfl
  silent := rest.silent
  carries := rest.carries
  kept name listed other := by
    refine (rest.kept name listed other).trans (asked.kept name listed ?_)
    exact fun same => other (same ▸ List.mem_cons_self)
  blanks name left := by
    obtain ⟨id, guarded, fresh, apart, present⟩ := rest.blanks name left
    exact
      ⟨id, guarded, Nat.le_trans (second.changes_perform _).nextId_le fresh,
        apart, present⟩

/-- A relocation before a transparent journey makes one. -/
theorem relocate
    {leg : Leg}
    (relocates : leg.asks = false)
    (carries : first.Carries rename names home here second)
    (strict : StrictMono rename)
    (distinct : (here :: (leg.targets ++ legs.flatMap Leg.targets)).Nodup)
    (unseen : leg.Unseen rename shift names home here first second)
    (rest :
      Transparent shift renamed names home (leg.arrival here) first
        (second.perform (.act here leg.action)).session legs) :
    Transparent rename renamed names home here first second (leg :: legs) where
  strict := rest.strict
  agrees id below := (rest.agrees id below).trans (unseen.agrees id below)
  grows id := Nat.le_trans (unseen.grows id) (rest.grows id)
  alike := by
    rw [stay_of_not_asks home relocates, ← rest.alike, journey,
      Session.performAll]
    exact (asked_cons_of_not_asks relocates _ _ _).1
  silent := by
    intro event member
    rw [journey, Session.performAll,
      (asked_cons_of_not_asks relocates _ _ _).2] at member
    rcases List.mem_append.mp member with inLeg | inRest
    · exact unseen.silent event inLeg
    · exact rest.silent event inRest
  carries := by
    rw [stay_of_not_asks home relocates]
    exact rest.carries
  kept name listed other := by
    rw [List.flatMap_cons] at other
    have notHere : name ≠ here := fun same => other (same ▸ List.mem_cons_self)
    have notTarget : name ∉ leg.targets := fun member =>
      other (List.mem_cons_of_mem _ (List.mem_append_left _ member))
    have notLater : name ∉ legs.flatMap Leg.targets := fun member =>
      other (List.mem_cons_of_mem _ (List.mem_append_right _ member))
    refine (rest.kept name listed ?_).trans (unseen.kept name notHere notTarget)
    intro member
    rcases List.mem_cons.mp member with same | inLater
    · rcases leg.arrival_eq here with stays | arrives
      · exact notHere (same.trans stays)
      · exact notTarget (same ▸ arrives)
    · exact notLater inLater
  blanks name left := by
    obtain ⟨away, apart⟩ := List.nodup_cons.mp distinct
    rcases List.mem_append.mp left with now | later
    · by_cases takes : leg.takes = true
      · rw [if_pos takes] at now
        rw [List.mem_singleton.mp now]
        obtain ⟨beyond, guarded, blank⟩ := unseen.blank takes
        refine ⟨second.nextId, guarded, Nat.le_refl _, ?_, ?_⟩
        · intro other same
          rcases Nat.lt_or_ge other first.nextId with below | above
          · have fresh : rename first.nextId = second.nextId :=
              carries.mirrors.nextId 0
            have image := strict below
            rw [← unseen.agrees other below, ← rest.agrees other below, same,
              fresh] at image
            exact Nat.lt_irrefl _ image
          · have image := Nat.lt_of_lt_of_le (beyond other above) (rest.grows other)
            rw [same] at image
            exact Nat.lt_irrefl _ image
        · refine (rest.kept here carries.hereListed ?_).trans blank
          intro member
          rcases List.mem_cons.mp member with same | inLater
          · exact away (same ▸ List.mem_append_left _ (Leg.arrival_mem takes))
          · exact away (List.mem_append_right _ inLater)
      · rw [if_neg takes] at now
        contradiction
    · obtain ⟨id, guarded, fresh, single, present⟩ := rest.blanks name later
      exact
        ⟨id, guarded, Nat.le_trans (second.changes_perform _).nextId_le fresh,
          single, present⟩

end Transparent

/-- Along a journey the image of a reply does what the reply does that stays. -/
theorem Session.Carries.journey
    (legs : List Leg)
    {rename : Nat → Nat}
    {names : List String}
    {home here : String}
    {first second : Session}
    (carries : first.Carries rename names home here second)
    (strict : StrictMono rename)
    (given : first.Every fun count reply => reply.id < count)
    (settled : first.Every fun _ reply => reply.Settled)
    (listed : ∀ target ∈ legs.flatMap Leg.targets, target ∈ names)
    (distinct : (here :: legs.flatMap Leg.targets).Nodup)
    (free :
      ∀ target ∈ legs.flatMap Leg.targets, second.slots.get? target = none)
    (unnamed : ∀ name ∈ names, name ∉ legs.flatMap Leg.named) :
    ∃ renamed, Transparent rename renamed names home here first second legs := by
  induction legs generalizing rename here first second with
  | nil => exact ⟨rename, .nil carries strict⟩
  | cons leg rest inductionHypothesis =>
      rw [List.flatMap_cons] at listed distinct free unnamed
      have restListed : ∀ target ∈ rest.flatMap Leg.targets, target ∈ names :=
        fun target member => listed target (List.mem_append_right _ member)
      have restUnnamed : ∀ name ∈ names, name ∉ rest.flatMap Leg.named :=
        fun name inNames member =>
          unnamed name inNames (List.mem_append_right _ member)
      obtain ⟨away, apart⟩ := List.nodup_cons.mp distinct
      have notHere :
          ∀ target ∈ rest.flatMap Leg.targets, target ≠ here := by
        intro target member same
        exact away (List.mem_append_right _ (same ▸ member))
      cases relocates : leg.asks with
      | true =>
          cases leg with
          | ask step =>
              have asked :=
                carries.ask fun name inNames member =>
                  unnamed name inNames (List.mem_append_left _ member)
              have nextFree :
                  ∀ target ∈ rest.flatMap Leg.targets,
                    (second.perform
                      (.act here (.ask step))).session.slots.get? target =
                        none := by
                intro target member
                rw [asked.kept target (restListed target member)
                  (notHere target member)]
                exact free target member
              obtain ⟨renamed, transparent⟩ :=
                inductionHypothesis asked.carries strict
                  (lasting_id_lt.command given _).1
                  (lasting_settled.command settled _).1 restListed distinct
                  nextFree restUnnamed
              exact ⟨renamed, .ask given asked transparent⟩
          | take | move | guard | unguard => contradiction
      | false =>
          obtain ⟨shift, unseen⟩ :=
            carries.relocate strict given settled relocates
              (fun target member =>
                listed target (List.mem_append_left _ member))
              (fun member => away (List.mem_append_left _ member))
              (fun target member =>
                free target (List.mem_append_left _ member))
          have nextDistinct :
              (leg.arrival here :: rest.flatMap Leg.targets).Nodup := by
            cases leg with
            | ask step => contradiction
            | take target | move target => exact apart
            | guard | unguard => exact distinct
          have nextFree :
              ∀ target ∈ rest.flatMap Leg.targets,
                (second.perform
                  (.act here leg.action)).session.slots.get? target =
                    none := by
            intro target member
            rw [unseen.kept target (notHere target member) ?_]
            · exact free target (List.mem_append_right _ member)
            · intro inLeg
              exact
                (List.nodup_append.mp apart).2.2 target inLeg target member rfl
          obtain ⟨renamed, transparent⟩ :=
            inductionHypothesis unseen.carries unseen.strict given settled
              restListed nextDistinct nextFree restUnnamed
          exact
            ⟨renamed,
              .relocate relocates carries strict distinct unseen transparent⟩

end Reply
