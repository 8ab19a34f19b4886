import Mathlib.Algebra.GroupWithZero.Nat
import Reply.Proofs.Session.Custody

namespace Reply

/-!
# What a turn does to replies

Each turn does one thing to at most one reply: it makes, changes, destroys or lets
go of it, or leaves all replies as they are.  What is summed up over live replies
therefore changes by what this one deed takes up and yields, and an account of a
whole run is kept by looking at the few kinds of deeds.
-/

/-! ## Sums -/

section

variable {α β : Type}

/-- Sizes over a list are summed up as elsewhere. -/
theorem sumOf_eq_sum
    (size : α → Nat)
    (list : List α) :
    sumOf size list = (list.map size).sum := by
  induction list with
  | nil => rfl
  | cons value rest inductionHypothesis =>
      rw [sumOf, List.map_cons, List.sum_cons, inductionHypothesis]

theorem sumOf_append
    (size : α → Nat)
    (first second : List α) :
    sumOf size (first ++ second) = sumOf size first + sumOf size second := by
  simp only [sumOf_eq_sum, List.map_append, List.sum_append]

theorem sumOf_map
    (size : β → Nat)
    (image : α → β)
    (list : List α) :
    sumOf size (list.map image) = sumOf (fun value => size (image value)) list := by
  simp only [sumOf_eq_sum, List.map_map]
  rfl

/-- Counting what values carry is summing up. -/
theorem count_flatMap_eq_sumOf
    [DecidableEq β]
    (carried : α → List β)
    (list : List α)
    (token : β) :
    (list.flatMap carried).count token =
      sumOf (fun value => (carried value).count token) list := by
  rw [List.count_flatMap, sumOf_eq_sum]
  rfl

theorem sumOf_count_singleton
    [DecidableEq β]
    (image : α → β)
    (list : List α)
    (token : β) :
    sumOf (fun value => [image value].count token) list =
      (list.map image).count token := by
  rw [← count_flatMap_eq_sumOf, List.map_eq_flatMap]

end

/-! ## Deeds -/

/-- What is done to replies: to one, or to none. -/
inductive Deed
  /-- Nothing is done to a reply. -/
  | idle
  /-- A reply is made. -/
  | made (reply : Response)
  /-- A step is carried out on a reply. -/
  | stepped (session : Session) (reply : Response) (step : Step)
  /-- A reply is finalized. -/
  | finalized (reply : Response)
  /-- A guarded reply is let go, so it has to be finalized. -/
  | letGo (reply : Response)
  /-- A reply is taken out of its guard, in which a blank one remains. -/
  | unwrapped (fresh : Nat) (reply : Response)
  /-- A reply is destroyed. -/
  | destroyed (reply : Response)

namespace Deed

/-- The replies that a deed takes up. -/
def used : Deed → List Response
  | .stepped _ reply _ => [reply]
  | .finalized reply => [reply]
  | .unwrapped _ reply => [reply]
  | .destroyed reply => [reply]
  | _ => []

/-- The live replies that a deed makes of those it takes up, or makes anew. -/
def yielded : Deed → List Response
  | .made reply => [reply]
  | .stepped session reply step => (step.apply session reply).replies
  | .finalized reply => [reply.finalize.value.1]
  | .unwrapped fresh reply => [(reply.relocate fresh).value.1]
  | _ => []

/-- The replies that no longer live after a deed. -/
def gone : Deed → List Response
  | .unwrapped fresh reply => [(reply.relocate fresh).value.2]
  | .destroyed reply => [reply]
  | _ => []

/-- The identities that a deed gives out. -/
def born : Deed → List Nat
  | .made reply => [reply.id]
  | .stepped session _ (.relocate _) => [session.nextId]
  | .unwrapped fresh _ => [fresh]
  | _ => []

end Deed

/-- What a task does to replies. -/
def Task.deed (machine : Machine) : Task → Deed
  | .finalize =>
      match machine.hand with
      | [] => .idle
      | reply :: _ => .finalized reply
  | .play _ ((_, step) :: _) =>
      match machine.hand with
      | [] => .idle
      | reply :: _ => .stepped machine.session reply step
  | .shelve slot _ =>
      match machine.hand, machine.session.slots.get? slot with
      | _ :: _, some ⟨former, true⟩ => .letGo former
      | _ :: _, some ⟨former, false⟩ => .destroyed former
      | _, _ => .idle
  | .discard =>
      match machine.hand with
      | [] => .idle
      | reply :: _ => .destroyed reply
  | _ => .idle

/-- What an action does to replies. -/
def Action.deed
    (session : Session)
    (slot : String)
    (content : Holding) :
    Action → Deed
  | .drop =>
      if content.guarded then .letGo content.reply else .destroyed content.reply
  | .unguard =>
      if content.guarded then
        .unwrapped session.nextId content.reply
      else
        .idle
  | .release => if content.guarded then .idle else .destroyed content.reply
  | .deliver => if content.guarded then .idle else .destroyed content.reply
  | .ask step => .stepped (session.emptied slot) content.reply step
  | _ => .idle

/-- What a command does to replies. -/
def Command.deed (session : Session) : Command → Deed
  | .create _ => .made (.blank session.nextId)
  | .adopt _ message => .made (.ofMessage session.nextId message)
  | .act slot action =>
      match session.slots.get? slot with
      | some content => action.deed session slot content
      | none => .idle

/-- What a turn does to replies. -/
def Turn.deed : Turn → Deed
  | .order session command => command.deed session
  | .work machine task => task.deed machine

/-- What turns do, case by case, and what makes them do it. -/
inductive Turn.Does : Turn → Deed → Prop
  | idle (turn : Turn) : Does turn .idle
  | created
      (session : Session)
      (slot : String) :
      Does (.order session (.create slot)) (.made (.blank session.nextId))
  | adopted
      (session : Session)
      (slot : String)
      (message : Message String) :
      Does (.order session (.adopt slot message))
        (.made (.ofMessage session.nextId message))
  | asked
      {session : Session}
      {slot : String}
      {content : Holding}
      (present : session.slots.get? slot = some content)
      (step : Step) :
      Does (.order session (.act slot (.ask step)))
        (.stepped (session.emptied slot) content.reply step)
  | dropped
      {session : Session}
      {slot : String}
      {reply : Response}
      (present : session.slots.get? slot = some ⟨reply, true⟩) :
      Does (.order session (.act slot .drop)) (.letGo reply)
  | unwrapped
      {session : Session}
      {slot : String}
      {reply : Response}
      (present : session.slots.get? slot = some ⟨reply, true⟩) :
      Does (.order session (.act slot .unguard))
        (.unwrapped session.nextId reply)
  | dismissed
      {session : Session}
      {slot : String}
      {reply : Response}
      (present : session.slots.get? slot = some ⟨reply, false⟩)
      (action : Action) :
      Does (.order session (.act slot action)) (.destroyed reply)
  | played
      {machine : Machine}
      {reply : Response}
      {below : List Response}
      (hand : machine.hand = reply :: below)
      (handler word : String)
      (step : Step)
      (rest : Script) :
      Does (.work machine (.play handler ((word, step) :: rest)))
        (.stepped machine.session reply step)
  | finalized
      {machine : Machine}
      {reply : Response}
      {below : List Response}
      (hand : machine.hand = reply :: below) :
      Does (.work machine .finalize) (.finalized reply)
  | discarded
      {machine : Machine}
      {reply : Response}
      {below : List Response}
      (hand : machine.hand = reply :: below) :
      Does (.work machine .discard) (.destroyed reply)
  | evicted
      {machine : Machine}
      {reply kept : Response}
      {below : List Response}
      {slot : String}
      (hand : machine.hand = reply :: below)
      (present : machine.session.slots.get? slot = some ⟨kept, true⟩)
      (guarded : Bool) :
      Does (.work machine (.shelve slot guarded)) (.letGo kept)
  | displaced
      {machine : Machine}
      {reply former : Response}
      {below : List Response}
      {slot : String}
      (hand : machine.hand = reply :: below)
      (present : machine.session.slots.get? slot = some ⟨former, false⟩)
      (guarded : Bool) :
      Does (.work machine (.shelve slot guarded)) (.destroyed former)

/-- A turn does what its deed is. -/
theorem Turn.does (turn : Turn) : turn.Does turn.deed := by
  cases turn with
  | order session command =>
      cases command with
      | create slot => exact .created session slot
      | adopt slot message => exact .adopted session slot message
      | act slot action =>
          simp only [deed, Command.deed]
          rcases present : session.slots.get? slot with _ | ⟨reply, guarded⟩
          · exact .idle _
          · cases action with
            | drop =>
                cases guarded with
                | false => exact .dismissed present .drop
                | true => exact .dropped present
            | unguard =>
                cases guarded with
                | false => exact .idle _
                | true => exact .unwrapped present
            | release =>
                cases guarded with
                | false => exact .dismissed present .release
                | true => exact .idle _
            | deliver =>
                cases guarded with
                | false => exact .dismissed present .deliver
                | true => exact .idle _
            | ask step => exact .asked present step
            | move | guard => exact .idle _
  | work machine task =>
      simp only [deed]
      cases task with
      | finalize =>
          cases hand : machine.hand with
          | nil => simpa only [Task.deed, hand] using .idle _
          | cons reply below =>
              simpa only [Task.deed, hand] using .finalized hand
      | discard =>
          cases hand : machine.hand with
          | nil => simpa only [Task.deed, hand] using .idle _
          | cons reply below =>
              simpa only [Task.deed, hand] using .discarded hand
      | play handler script =>
          rcases script with _ | ⟨⟨word, step⟩, rest⟩
          · exact .idle _
          · cases hand : machine.hand with
            | nil => simpa only [Task.deed, hand] using .idle _
            | cons reply below =>
                simpa only [Task.deed, hand] using
                  .played hand handler word step rest
      | shelve slot guarded =>
          cases hand : machine.hand with
          | nil => simpa only [Task.deed, hand] using .idle _
          | cons reply below =>
              rcases present : machine.session.slots.get? slot with
                _ | ⟨former, _ | _⟩
              · simpa only [Task.deed, hand, present] using .idle _
              · simpa only [Task.deed, hand, present] using
                  .displaced hand present guarded
              · simpa only [Task.deed, hand, present] using
                  .evicted hand present guarded
      | report => exact .idle _

/-! ## The flow of replies -/

namespace Session

variable (size : Response → Nat)

/-- Putting a reply into a slot exchanges it for the one that was there. -/
theorem sumOf_replies_put
    (session : Session)
    (slot : String)
    (content : Holding) :
    sumOf (fun former => size former.reply)
        (session.slots.get? slot).toList +
        sumOf size
          ({ session with slots := session.slots.put slot content } :
            Session).replies =
      size content.reply + sumOf size session.replies := by
  have exchanged :=
    sumOf_perm (fun former : Holding => size former.reply)
      (session.slots.contents_put slot content)
  rw [sumOf_append] at exchanged
  simp only [replies, sumOf_map]
  exact exchanged

/-- Emptying a slot gives its reply out. -/
theorem sumOf_replies_emptied
    {session : Session}
    {slot : String}
    {content : Holding}
    (present : session.slots.get? slot = some content) :
    size content.reply + sumOf size (session.emptied slot).replies =
      sumOf size session.replies := by
  have taken :=
    sumOf_perm (fun former : Holding => size former.reply)
      (session.slots.contents_erase slot)
  rw [present, sumOf_append] at taken
  simp only [replies, sumOf_map]
  exact taken

end Session

namespace Machine

variable (size : Response → Nat)

theorem sumOf_replies (machine : Machine) :
    sumOf size machine.replies =
      sumOf size machine.hand + sumOf size machine.session.replies :=
  sumOf_append ..

@[simp] theorem replies_note
    (machine : Machine)
    (notes : List Note) :
    (machine.note notes).replies = machine.replies :=
  rfl

theorem sumOf_replies_atRest (session : Session) :
    sumOf size (atRest session).replies = sumOf size session.replies :=
  rfl

theorem sumOf_replies_holding
    (session : Session)
    (reply : Response)
    (tasks : List Task) :
    sumOf size (holding session reply tasks).replies =
      size reply + sumOf size session.replies :=
  rfl

/-- The live replies after a step are those the step yields and those below. -/
theorem sumOf_replies_stepped
    {machine : Machine}
    {session : Session}
    {reply : Response}
    {below : List Response}
    {step : Step}
    (left : machine.session = (step.apply session reply).session)
    (hand : machine.hand = (step.apply session reply).reply :: below) :
    sumOf size (machine.follow (step.apply session reply).sequel).replies =
      sumOf size (step.apply session reply).replies + sumOf size below +
        sumOf size session.replies := by
  obtain ⟨session, taken⟩ :=
    machine.follow_keeps (step.apply session reply).sequel
  rw [sumOf_replies, session, taken, left, hand, Session.replies,
    (step.frame_apply _ _).1, sumOf_append, Effect.replies]
  simp only [Session.replies, sumOf]
  omega

/-- A task takes up and yields what its deed says, and leaves all other replies. -/
theorem flow_perform
    (machine : Machine)
    (task : Task) :
    sumOf size (machine.perform task).replies +
        sumOf size (task.deed machine).used =
      sumOf size machine.replies + sumOf size (task.deed machine).yielded := by
  cases task with
  | finalize =>
      cases hand : machine.hand with
      | nil => simp only [perform, finalize, Task.deed, hand, Deed.used, Deed.yielded]
      | cons reply below =>
          obtain ⟨session, finished⟩ := finalize_keeps hand
          simp only [perform, Task.deed, hand, Deed.used, Deed.yielded,
            sumOf_replies, session, finished, sumOf]
          omega
  | play handler script =>
      cases script with
      | nil => rfl
      | cons line rest =>
          rcases line with ⟨word, step⟩
          cases hand : machine.hand with
          | nil => simp only [perform, play, Task.deed, hand, Deed.used, Deed.yielded]
          | cons reply below =>
              simp only [perform, play, hand]
              rw [sumOf_replies_stepped size rfl rfl]
              simp only [Task.deed, hand, Deed.used, Deed.yielded,
                sumOf_replies, sumOf]
              omega
  | report handler word answer => rfl
  | shelve slot guarded =>
      cases hand : machine.hand with
      | nil => simp only [perform, shelve, Task.deed, hand, Deed.used, Deed.yielded]
      | cons reply below =>
          have exchanged :=
            machine.session.sumOf_replies_put size slot ⟨reply, guarded⟩
          rcases present : machine.session.slots.get? slot with
            _ | ⟨former, formerGuarded⟩
          · simp only [present, Option.toList_none, sumOf] at exchanged
            simp only [perform, shelve, Task.deed, hand, present, Deed.used,
              Deed.yielded, sumOf_replies, sumOf]
            omega
          · simp only [present, Option.toList_some, sumOf] at exchanged
            cases formerGuarded with
            | true =>
                simp only [perform, shelve, Task.deed, hand, present,
                  Deed.used, Deed.yielded, sumOf_replies, sumOf]
                omega
            | false =>
                simp only [perform, shelve, Task.deed, hand, present,
                  Deed.used, Deed.yielded, sumOf_replies, sumOf]
                omega
  | discard =>
      cases hand : machine.hand with
      | nil =>
          simp only [perform, Task.deed, hand, Deed.used, Deed.yielded,
            sumOf_replies, List.tail_nil]
      | cons reply below =>
          simp only [perform, Task.deed, hand, Deed.used, Deed.yielded,
            sumOf_replies, List.tail_cons, sumOf]
          omega

end Machine

/-- An action takes up and yields what its deed says. -/
theorem Action.flow_start
    (size : Response → Nat)
    {session : Session}
    {slot : String}
    {content : Holding}
    (present : session.slots.get? slot = some content)
    (action : Action) :
    sumOf size (action.start session slot content).2.replies +
        sumOf size (action.deed session slot content).used =
      sumOf size session.replies +
        sumOf size (action.deed session slot content).yielded := by
  have taken := Session.sumOf_replies_emptied size present
  have rested := Machine.sumOf_replies_atRest size
  cases action with
  | drop =>
      simp only [start, Session.letGo, deed]
      split
      · rw [Machine.sumOf_replies_holding]
        simp only [Deed.used, Deed.yielded, sumOf]
        omega
      · rw [rested]
        simp only [Deed.used, Deed.yielded, sumOf]
        omega
  | move target =>
      simp only [start, deed, Deed.used, Deed.yielded]
      rw [Machine.sumOf_replies_holding]
      omega
  | guard =>
      simp only [start, deed, Deed.used, Deed.yielded]
      split
      · rfl
      · rw [Machine.sumOf_replies_holding]
        omega
  | unguard =>
      have grown :
          sumOf size (session.emptied slot).grown.replies =
            sumOf size (session.emptied slot).replies :=
        rfl
      simp only [start, deed]
      split
      · simp only [Deed.used, Deed.yielded, sumOf, Machine.replies_note,
          Machine.sumOf_replies_holding, grown]
        omega
      · rfl
  | release | deliver =>
      simp only [start, deed]
      split
      · rfl
      · simp only [Deed.used, Deed.yielded, sumOf, Machine.replies_note, rested]
        omega
  | ask step =>
      have own :
          sumOf size
              (session.ask slot content step).2.replies =
            sumOf size
                (step.apply (session.emptied slot) content.reply).replies +
              sumOf size (session.emptied slot).replies := by
        simp only [Session.ask]
        split
        · next target moved carried =>
            simp only [Effect.replies, Sequel.replies, carried,
              Machine.sumOf_replies, Machine.note, Session.replies,
              (step.frame_apply (session.emptied slot) content.reply).1, sumOf]
        · rw [Machine.sumOf_replies_stepped size rfl rfl]
          rfl
      simp only [start, deed, Deed.used, Deed.yielded, sumOf, own]
      omega

theorem Command.flow_start
    (size : Response → Nat)
    {session : Session}
    (command : Command) :
    sumOf size (command.start session).2.replies +
        sumOf size (command.deed session).used =
      sumOf size session.replies +
        sumOf size (command.deed session).yielded := by
  cases command with
  | create slot =>
      change size _ + sumOf size session.replies = _
      simp only [deed, Deed.yielded, sumOf]
      omega
  | adopt slot message =>
      change size _ + sumOf size session.replies = _
      simp only [deed, Deed.yielded, sumOf]
      omega
  | act slot action =>
      cases present : session.slots.get? slot with
      | none =>
          simp only [start, deed, present, Deed.used, Deed.yielded]
          rfl
      | some content =>
          simp only [start, deed, present]
          exact action.flow_start size present

/-- A turn takes up and yields what its deed says. -/
theorem Turn.flow
    (size : Response → Nat)
    (turn : Turn) :
    sumOf size turn.after.replies + sumOf size turn.deed.used =
      sumOf size turn.before.replies + sumOf size turn.deed.yielded := by
  cases turn with
  | order session command => exact command.flow_start size
  | work machine task => exact machine.flow_perform size task

/--
An account that no deed overdraws is not overdrawn by a run: what live replies
hold and what was spent is covered by what was gained.
-/
theorem Run.covered
    {size : Response → Nat}
    {gained spent : Deed → Nat}
    (law :
      ∀ deed : Deed,
        sumOf size deed.yielded + spent deed ≤
          sumOf size deed.used + gained deed)
    {turns : List Turn}
    {machine : Machine}
    (run : Run turns machine) :
    sumOf size machine.replies + sumOf spent (turns.map Turn.deed) ≤
      sumOf gained (turns.map Turn.deed) := by
  induction run with
  | start => exact Nat.le_refl 0
  | @order turns machine run rested command inductionHypothesis =>
      have flow :=
        Turn.flow size (.order machine.session command)
      have covered := law (Turn.order machine.session command).deed
      have same :
          sumOf size (Turn.order machine.session command).before.replies =
            sumOf size machine.replies := by
        simp only [Turn.before, Machine.replies, run.hand_eq_nil rested]
        rfl
      rw [same] at flow
      simp only [List.map_append, List.map_cons, List.map_nil, sumOf_append, sumOf]
      change sumOf size (Turn.order machine.session command).after.replies + _ ≤ _
      omega
  | @work turns machine run task later planned inductionHypothesis =>
      have flow :=
        Turn.flow size (.work { machine with tasks := later } task)
      have covered := law (Turn.work { machine with tasks := later } task).deed
      have same :
          sumOf size
              (Turn.work { machine with tasks := later } task).before.replies =
            sumOf size machine.replies :=
        rfl
      rw [same] at flow
      simp only [List.map_append, List.map_cons, List.map_nil, sumOf_append, sumOf]
      change
        sumOf size
            (Turn.work { machine with tasks := later } task).after.replies + _ ≤
          _
      omega

/-! ## Identities -/

/-- A step that gives no identity out and leaves the reply in hand its own. -/
structure Step.InPlace
    (session : Session)
    (reply : Response)
    (step : Step) : Prop where
  nextId : (step.apply session reply).session.nextId = session.nextId
  id : (step.apply session reply).reply.id = reply.id
  carried : (step.apply session reply).sequel.replies = []
  born : (Deed.stepped session reply step).born = []

/-- What a step is known to do tells whether it acts in place. -/
theorem Step.InPlace.of_eq
    {session : Session}
    {reply : Response}
    {step : Step}
    {effect : Effect}
    (same : step.apply session reply = effect)
    (nextId : effect.session.nextId = session.nextId)
    (id : effect.reply.id = reply.id)
    (carried : effect.sequel.replies = [])
    (born : (Deed.stepped session reply step).born = []) :
    step.InPlace session reply := by
  subst same
  exact ⟨nextId, id, carried, born⟩

/-- Every step but a relocation acts in place. -/
theorem Step.relocates_or_inPlace
    (step : Step)
    (session : Session)
    (reply : Response) :
    (∃ slot, step = .relocate slot) ∨ step.InPlace session reply := by
  cases content : step.isContent with
  | true =>
      have effect := step.onContent session reply content
      obtain ⟨flags, same⟩ := effect.session
      refine Or.inr ⟨?_, effect.kept.id, ?_, ?_⟩
      · rw [same]
      · rw [effect.sequel]
        rfl
      · cases step with
        | relocate slot => contradiction
        | _ => rfl
  | false =>
      cases step with
      | relocate slot => exact Or.inl ⟨slot, rfl⟩
      | clear | finalize | setHandler | setProbe =>
          exact Or.inr ⟨rfl, rfl, rfl, rfl⟩
      | releaseHandler name =>
          exact
            Or.inr (.of_eq (session.releaseHandler_eq reply name) rfl rfl rfl rfl)
      | invokeHandler name =>
          exact
            Or.inr
              (.of_eq (session.invokeHandler_eq reply name) rfl rfl
                (Sequel.replies_firing _) rfl)
      | attachHandler name =>
          exact
            Or.inr (.of_eq (session.attachHandler_eq reply name) rfl rfl rfl rfl)
      | releaseProbe name =>
          exact
            Or.inr (.of_eq (session.releaseProbe_eq reply name) rfl rfl rfl rfl)
      | attachProbe name =>
          exact
            Or.inr (.of_eq (session.attachProbe_eq reply name) rfl rfl rfl rfl)
      | _ => contradiction

/-- A step gives out at most the next identity. -/
theorem Step.range_nextId
    (step : Step)
    (session : Session)
    (reply : Response) :
    List.range (step.apply session reply).session.nextId =
      List.range session.nextId ++ (Deed.stepped session reply step).born := by
  rcases step.relocates_or_inPlace session reply with ⟨slot, rfl⟩ | stays
  · exact List.range_succ
  · rw [stays.nextId, stays.born, List.append_nil]

/-- A turn gives out at most the next identity. -/
theorem Turn.range_nextId (turn : Turn) :
    List.range turn.after.session.nextId =
      List.range turn.before.session.nextId ++ turn.deed.born := by
  cases turn with
  | order session command =>
      cases command with
      | create slot => exact List.range_succ
      | adopt slot message => exact List.range_succ
      | act slot action =>
          simp only [after, before, deed, Command.start, Command.deed]
          cases present : session.slots.get? slot with
          | none => exact (List.append_nil _).symm
          | some content =>
              cases action with
              | ask step =>
                  simp only [Action.start, Action.deed, Session.session_ask]
                  exact step.range_nextId (session.emptied slot) content.reply
              | move target => exact (List.append_nil _).symm
              | unguard =>
                  simp only [Action.start, Action.deed]
                  split
                  · exact List.range_succ
                  · exact (List.append_nil _).symm
              | drop =>
                  simp only [Action.start, Action.deed, Session.letGo]
                  split <;> exact (List.append_nil _).symm
              | guard | release | deliver =>
                  simp only [Action.start, Action.deed]
                  split <;> exact (List.append_nil _).symm
  | work machine task =>
      cases task with
      | finalize =>
          simp only [after, before, deed, Machine.perform, Task.deed]
          cases hand : machine.hand with
          | nil =>
              simp only [Machine.finalize, hand]
              exact (List.append_nil _).symm
          | cons reply below =>
              rw [(Machine.finalize_keeps hand).1]
              exact (List.append_nil _).symm
      | play handler script =>
          cases script with
          | nil => exact (List.append_nil _).symm
          | cons line rest =>
              rcases line with ⟨word, step⟩
              simp only [after, before, deed, Machine.perform, Machine.play,
                Task.deed]
              cases hand : machine.hand with
              | nil => exact (List.append_nil _).symm
              | cons reply below =>
                  simp only [(Machine.follow_keeps _ _).1]
                  exact step.range_nextId machine.session reply
      | report handler word answer => exact (List.append_nil _).symm
      | shelve slot guarded =>
          simp only [after, before, deed, Machine.perform, Machine.shelve,
            Task.deed]
          cases hand : machine.hand with
          | nil => exact (List.append_nil _).symm
          | cons reply below =>
              rcases present : machine.session.slots.get? slot with
                _ | ⟨former, _ | _⟩ <;>
                exact (List.append_nil _).symm
      | discard =>
          simp only [after, before, deed, Machine.perform, Task.deed]
          cases machine.hand <;> exact (List.append_nil _).symm

/-- A step keeps the identity of its reply and gives the one it makes a new one. -/
theorem Step.ids_apply
    (step : Step)
    (session : Session)
    (reply : Response) :
    (step.apply session reply).replies.map Buffered.id =
      (Deed.stepped session reply step).born ++ [reply.id] := by
  rcases step.relocates_or_inPlace session reply with ⟨slot, rfl⟩ | stays
  · rfl
  · rw [Effect.replies, stays.carried, stays.born, List.map_cons, stays.id]
    rfl

/-- Identities are those that were there and those given out. -/
theorem Deed.count_ids (deed : Deed) (id : Nat) :
    (deed.yielded.map Buffered.id).count id +
        (deed.gone.map Buffered.id).count id =
      (deed.used.map Buffered.id).count id + deed.born.count id := by
  cases deed with
  | idle | letGo | destroyed => simp [yielded, gone, used, born]
  | made reply => simp [yielded, gone, used, born]
  | stepped session reply step =>
      simp only [yielded, gone, used, step.ids_apply, List.count_append,
        List.map_nil, List.map_cons, List.count_nil]
      omega
  | finalized reply =>
      have same : reply.finalize.value.1.id = reply.id := by
        rw [Buffered.finalize_value]
        split <;> exact (Buffered.Kept.tagged reply).id
      simp [yielded, gone, used, born, same]
  | unwrapped fresh reply =>
      simp only [yielded, gone, used, born, Buffered.relocate, List.map_cons,
        List.map_nil]
      rfl

namespace Run

variable {turns : List Turn} {machine : Machine}

/-- In every run identities are given out one after the other. -/
theorem born_eq_range (run : Run turns machine) :
    (turns.map Turn.deed).flatMap Deed.born =
      List.range machine.session.nextId := by
  induction run with
  | start => rfl
  | @order turns machine run rested command inductionHypothesis =>
      rw [List.map_append, List.flatMap_append, inductionHypothesis]
      simp only [List.map_cons, List.map_nil, List.flatMap_singleton]
      exact (Turn.range_nextId (.order machine.session command)).symm
  | @work turns machine run task later planned inductionHypothesis =>
      rw [List.map_append, List.flatMap_append, inductionHypothesis]
      simp only [List.map_cons, List.map_nil, List.flatMap_singleton]
      exact
        (Turn.range_nextId (.work { machine with tasks := later } task)).symm

/-- In every run no two replies, living or gone, have the same identity. -/
theorem nodup_ids (run : Run turns machine) :
    (machine.replies.map Buffered.id ++
      (turns.map Turn.deed).flatMap fun deed =>
        deed.gone.map Buffered.id).Nodup := by
  apply List.nodup_iff_count_le_one.mpr
  intro id
  have law :
      ∀ deed : Deed,
        sumOf (fun reply : Response => [reply.id].count id) deed.yielded +
            (deed.gone.map Buffered.id).count id ≤
          sumOf (fun reply : Response => [reply.id].count id) deed.used +
            deed.born.count id := by
    intro deed
    rw [sumOf_count_singleton, sumOf_count_singleton]
    exact Nat.le_of_eq (deed.count_ids id)
  have covered := run.covered law
  have once : (List.range machine.session.nextId).count id ≤ 1 :=
    List.nodup_iff_count_le_one.mp List.nodup_range id
  rw [sumOf_count_singleton, ← count_flatMap_eq_sumOf, ← count_flatMap_eq_sumOf,
    run.born_eq_range] at covered
  rw [List.count_append]
  exact Nat.le_trans covered once

end Run

end Reply
