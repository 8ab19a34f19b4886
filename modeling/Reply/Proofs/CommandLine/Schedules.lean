import Reply.CommandLine.Pipeline
import Reply.Proofs.CommandLine.Stages

namespace Reply.Demonstration

/-!
# The tasks in every order

Whichever party takes its turn next, the tasks come through the same phases: the reply
is made or refused, waits for the finisher, then for the owner, and is delivered.
Until the owner has its result somebody can go on, every turn brings the end nearer,
and the result is the one that the stages lead to one after the other.
-/

namespace Pipeline

/-! ## Phases -/

/-- How far the tasks can have come for a code and a held tag. -/
inductive Phase (code : Nat) (held : Option String) : Pipeline → Prop
  | producing : Phase code held start
  | refused
      (bad : Status.ofCode? code = none)
      (finished : Bool)
      {owner : Owner}
      (waits :
        owner = .awaitsProducer ∨
          owner = .ended (.error (.failed (.invalidStatus code)))) :
      Phase code held
        ⟨.empty, some (.error (.invalidStatus code)), finished, owner, .closed,
          .closed⟩
  | passing
      {status : Status}
      (good : Status.ofCode? code = some status)
      {owner : Owner}
      (waits : owner = .awaitsProducer ∨ owner = .awaitsFinisher) :
      Phase code held
        ⟨.empty, some (.ok ()), false, owner, .filled (filled status), .empty⟩
  | delivering
      {status : Status}
      (good : Status.ofCode? code = some status)
      {owner : Owner}
      (waits : owner.hasEnded = false) :
      Phase code held
        ⟨.empty, some (.ok ()), true, owner, .closed,
          .filled (concluded status held)⟩
  | delivered
      {status : Status}
      (good : Status.ofCode? code = some status) :
      Phase code held
        ⟨Registry.put .empty connection false, some (.ok ()), true,
          .ended (.ok (answer status held)), .closed, .closed⟩

namespace Phase

variable
  {code : Nat}
  {held : Option String}
  {pipeline next : Pipeline}

theorem produce?
    (phase : Phase code held pipeline)
    (taken : pipeline.produce? code = some next) :
    Phase code held next := by
  cases phase with
  | producing =>
      simp only [Pipeline.produce?, start, produce_eq] at taken
      cases known : Status.ofCode? code with
      | none =>
          rw [known] at taken
          rw [← Option.some.inj taken]
          exact .refused known false (Or.inl rfl)
      | some status =>
          rw [known] at taken
          rw [← Option.some.inj taken]
          exact .passing known (Or.inl rfl)
  | refused | passing | delivering | delivered => contradiction

theorem finish?
    (phase : Phase code held pipeline)
    (taken : pipeline.finish? held = some next) :
    Phase code held next := by
  cases phase with
  | refused bad finished waits =>
      cases finished with
      | false =>
          rw [← Option.some.inj taken]
          exact .refused bad true waits
      | true => contradiction
  | @passing status good owner waits =>
      have present : owner.hasEnded = false := by
        rcases waits with rfl | rfl <;> rfl
      simp only [Pipeline.finish?, handOver, conclude_eq, present,
        Bool.false_eq_true, if_false] at taken
      rw [← Option.some.inj taken]
      exact .delivering good present
  | producing | delivering | delivered => contradiction

theorem own?
    (phase : Phase code held pipeline)
    (taken : pipeline.own? = some next) :
    Phase code held next := by
  cases phase with
  | producing => contradiction
  | refused bad finished waits =>
      rcases waits with rfl | rfl
      · rw [← Option.some.inj taken]
        exact .refused bad finished (Or.inr rfl)
      · contradiction
  | passing good waits =>
      rcases waits with rfl | rfl
      · rw [← Option.some.inj taken]
        exact .passing good (Or.inr rfl)
      · contradiction
  | @delivering status good owner waits =>
      cases owner with
      | awaitsProducer | awaitsFinisher =>
          rw [← Option.some.inj taken]
          exact .delivering good rfl
      | awaitsReply =>
          simp only [Pipeline.own?, transport_eq] at taken
          rw [← Option.some.inj taken]
          exact .delivered good
      | ended result => contradiction
  | delivered => contradiction

/-- Whoever takes a turn, it leads from phase to phase. -/
theorem turn?
    (phase : Phase code held pipeline)
    {party : Party}
    (taken : pipeline.turn? code held party = some next) :
    Phase code held next := by
  cases party with
  | producer => exact phase.produce? taken
  | finisher => exact phase.finish? taken
  | owner => exact phase.own? taken

/-- The owner ends with what the stages lead to. -/
theorem result_eq
    (phase : Phase code held pipeline)
    {result : Except Fault (Message String)}
    (ended : pipeline.owner = .ended result) :
    result = serve code held := by
  rw [serve_eq]
  cases phase with
  | producing => contradiction
  | refused bad finished waits =>
      rcases waits with rfl | rfl
      · contradiction
      · rw [bad, ← Owner.ended.inj ended]
  | passing good waits =>
      rcases waits with rfl | rfl <;> contradiction
  | delivering good waits =>
      obtain rfl := ended
      contradiction
  | delivered good => rw [good, ← Owner.ended.inj ended]

/-- Nobody waits in vain: somebody can go on until the owner has its result. -/
theorem exists_turn
    (phase : Phase code held pipeline)
    (going : pipeline.owner.hasEnded = false) :
    ∃ party next, pipeline.turn? code held party = some next := by
  cases phase with
  | producing =>
      refine ⟨.producer, ?_⟩
      simp only [Pipeline.turn?, Pipeline.produce?, start, produce_eq]
      cases Status.ofCode? code with
      | none => exact ⟨_, rfl⟩
      | some status => exact ⟨_, rfl⟩
  | refused bad finished waits =>
      rcases waits with rfl | rfl
      · exact ⟨.owner, _, rfl⟩
      · contradiction
  | passing good waits => exact ⟨.finisher, _, rfl⟩
  | @delivering status good owner waits =>
      cases owner with
      | awaitsProducer | awaitsFinisher | awaitsReply =>
          exact ⟨.owner, _, rfl⟩
      | ended result => contradiction
  | delivered good => contradiction

end Phase

/-! ## Turns that are left -/

/-- How many turns the owner has before it at most. -/
def ownTurnsLeft : Owner → Nat
  | .awaitsProducer => 3
  | .awaitsFinisher => 2
  | .awaitsReply => 1
  | .ended _ => 0

/-- How many turns the parties have before them at most. -/
def turnsLeft (pipeline : Pipeline) : Nat :=
  (if pipeline.produced.isSome then 0 else 1) +
    (if pipeline.finished then 0 else 1) +
    ownTurnsLeft pipeline.owner

section

variable
  {code : Nat}
  {held : Option String}
  {pipeline next : Pipeline}

/-- The producer takes one turn, and the others have as many as before. -/
theorem produced_of_produce?
    (taken : pipeline.produce? code = some next) :
    pipeline.produced = none ∧
      next.produced.isSome ∧
      next.finished = pipeline.finished ∧
      next.owner = pipeline.owner := by
  unfold produce? at taken
  split at taken
  case h_1 => contradiction
  case h_2 idle =>
    split at taken
    case h_3 =>
      split at taken <;>
        rw [← Option.some.inj taken] <;> exact ⟨idle, rfl, rfl, rfl⟩
    all_goals
      rw [← Option.some.inj taken]
      exact ⟨idle, rfl, rfl, rfl⟩

/-- The finisher takes one turn, and the others have as many as before. -/
theorem finished_of_finish?
    (taken : pipeline.finish? held = some next) :
    pipeline.finished = false ∧
      next.finished = true ∧
      next.produced = pipeline.produced ∧
      next.owner = pipeline.owner := by
  unfold finish? at taken
  split at taken
  case h_3 => contradiction
  all_goals
    rw [← Option.some.inj taken]
    exact ⟨by assumption, rfl, rfl, rfl⟩

/-- The owner comes nearer to its result, and the others have turns as before. -/
theorem owner_of_own?
    (taken : pipeline.own? = some next) :
    ownTurnsLeft next.owner < ownTurnsLeft pipeline.owner ∧
      next.produced = pipeline.produced ∧
      next.finished = pipeline.finished := by
  rcases pipeline with ⟨flags, produced, finished, owner, stage, delivery⟩
  cases owner with
  | awaitsProducer =>
      rcases produced with _ | failure | _
      · contradiction
      · rw [← Option.some.inj taken]
        exact ⟨Nat.zero_lt_succ 2, rfl, rfl⟩
      · rw [← Option.some.inj taken]
        exact ⟨Nat.lt_add_one 2, rfl, rfl⟩
  | awaitsFinisher =>
      cases finished with
      | false => contradiction
      | true =>
          rw [← Option.some.inj taken]
          exact ⟨Nat.lt_add_one 1, rfl, rfl⟩
  | awaitsReply =>
      cases delivery with
      | empty => contradiction
      | filled | closed =>
          rw [← Option.some.inj taken]
          exact ⟨Nat.zero_lt_one, rfl, rfl⟩
  | ended result => contradiction

/-- Every turn that is taken is one turn less, in whatever state. -/
theorem turnsLeft_lt
    {party : Party}
    (taken : pipeline.turn? code held party = some next) :
    next.turnsLeft < pipeline.turnsLeft := by
  cases party with
  | producer =>
      obtain ⟨idle, done, finished, owner⟩ := produced_of_produce? taken
      simp [turnsLeft, idle, done, finished, owner]
  | finisher =>
      obtain ⟨idle, done, produced, owner⟩ := finished_of_finish? taken
      simp [turnsLeft, idle, done, produced, owner]
  | owner =>
      obtain ⟨less, produced, finished⟩ := owner_of_own? taken
      simpa [turnsLeft, produced, finished] using less

end

/-- Turns in any order lead from phase to phase, and each is one turn less. -/
theorem Phase.follow?
    {code : Nat}
    {held : Option String}
    {order : List Party}
    {pipeline reached : Pipeline}
    (phase : Phase code held pipeline)
    (followed : pipeline.follow? code held order = some reached) :
    Phase code held reached ∧
      reached.turnsLeft + order.length ≤ pipeline.turnsLeft := by
  -- The order is taken from its front, so phase and bound are those of what is left.
  induction order generalizing pipeline with
  | nil =>
      rw [← Option.some.inj followed]
      exact ⟨phase, Nat.le_refl _⟩
  | cons party later inductionHypothesis =>
      obtain ⟨next, taken, rest⟩ := Option.bind_eq_some_iff.mp followed
      obtain ⟨kept, bound⟩ := inductionHypothesis (phase.turn? taken) rest
      have less := turnsLeft_lt taken
      rw [List.length_cons]
      exact ⟨kept, by omega⟩

/--
The parties take five turns at most in whatever order, and as long as the owner does
not have what the stages lead to, somebody can go on.
-/
theorem follow?_start
    {code : Nat}
    {held : Option String}
    {order : List Party}
    {reached : Pipeline}
    (followed : start.follow? code held order = some reached) :
    order.length ≤ 5 ∧
      (reached.owner = .ended (serve code held) ∨
        ∃ party next, reached.turn? code held party = some next) := by
  obtain ⟨phase, bound⟩ := Phase.follow? .producing followed
  have five : start.turnsLeft = 5 := rfl
  refine ⟨by omega, ?_⟩
  cases owner : reached.owner with
  | ended result => exact Or.inl (by rw [phase.result_eq owner])
  | awaitsProducer | awaitsFinisher | awaitsReply =>
      exact Or.inr (phase.exists_turn (by rw [owner]; rfl))

end Pipeline

end Reply.Demonstration
