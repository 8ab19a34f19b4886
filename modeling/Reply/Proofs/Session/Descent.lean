import Reply.Proofs.Session.Deeds

namespace Reply

/-!
# Where live replies come from

A reply that lives after a turn lived before it or is one that the turn's deed
yields, and what a deed takes up lives before it.  A property of replies that is
handed on from what each deed takes up to what it yields is therefore a property of
all live replies of a run, and of a run no more than its deeds has to be known.
-/

section

variable {α : Type} {property : α → Prop}

open Classical in
/-- A list without exceptions sums up to nothing when exceptions are counted. -/
theorem sumOf_exceptions_eq_zero_iff (list : List α) :
    sumOf (fun value => if property value then 0 else 1) list = 0 ↔
      ∀ value ∈ list, property value := by
  induction list with
  | nil => exact iff_of_true rfl (List.forall_mem_nil property)
  | cons value rest inductionHypothesis =>
      rw [sumOf, Nat.add_eq_zero_iff, inductionHypothesis,
        List.forall_mem_cons]
      refine and_congr_left' ?_
      split
      · next holds => exact iff_of_true rfl holds
      · next fails => exact iff_of_false Nat.one_ne_zero fails

end

/-! ## One turn -/

/-- The reply in a slot lives. -/
theorem Machine.mem_replies_of_slot
    (machine : Machine)
    {slot : String}
    {content : Holding}
    (present : machine.session.slots.get? slot = some content) :
    content.reply ∈ machine.replies :=
  List.mem_append_right _
    (List.mem_map.mpr
      ⟨content, Registry.mem_contents_of_get? present, rfl⟩)

/-- The reply on top lives. -/
theorem Machine.mem_replies_of_hand
    (machine : Machine)
    {reply : Response}
    {below : List Response}
    (hand : machine.hand = reply :: below) :
    reply ∈ machine.replies := by
  rw [replies, hand]
  exact List.mem_append_left _ List.mem_cons_self

namespace Turn

/-- What holds before a turn and of what its deed yields holds after it. -/
theorem forall_after
    {property : Response → Prop}
    (turn : Turn)
    (before : ∀ reply ∈ turn.before.replies, property reply)
    (yielded : ∀ reply ∈ turn.deed.yielded, property reply) :
    ∀ reply ∈ turn.after.replies, property reply := by
  classical
  have flow :=
    turn.flow fun reply => if property reply then 0 else 1
  rw [(sumOf_exceptions_eq_zero_iff _).mpr before,
    (sumOf_exceptions_eq_zero_iff _).mpr yielded] at flow
  exact
    (sumOf_exceptions_eq_zero_iff _).mp
      (Nat.eq_zero_of_add_eq_zero_right flow)

/-- What a deed takes up lives before the turn. -/
theorem used_subset (turn : Turn) :
    turn.deed.used ⊆ turn.before.replies := by
  have single :
      ∀ {reply : Response} {replies : List Response},
        reply ∈ replies → [reply] ⊆ replies :=
    fun member => List.cons_subset.mpr ⟨member, List.nil_subset _⟩
  have does := turn.does
  generalize turn.deed = deed at does ⊢
  cases does with
  | idle | created | adopted | dropped | evicted => exact List.nil_subset _
  | @asked session _ _ present | @unwrapped session _ _ present
  | @dismissed session _ _ present =>
      exact single ((Machine.atRest session).mem_replies_of_slot present)
  | @displaced machine _ _ _ _ _ present =>
      exact single (machine.mem_replies_of_slot present)
  | @played machine _ _ hand | @finalized machine _ _ hand
  | @discarded machine _ _ hand =>
      exact single (machine.mem_replies_of_hand hand)

end Turn

/-- The replies of a machine at rest are those that the next command starts from. -/
theorem Machine.Balanced.replies_atRest
    {machine : Machine}
    (balanced : machine.Balanced)
    (rested : machine.tasks = []) :
    (Machine.atRest machine.session).replies = machine.replies := by
  rw [Machine.replies, Machine.replies, balanced.hand_eq_nil rested]
  rfl

/-- A turn starts from the replies of the machine that it follows. -/
theorem Turn.Follows.replies_before
    {machine : Machine}
    {turn : Turn}
    (follows : turn.Follows machine)
    (balanced : machine.Balanced) :
    turn.before.replies = machine.replies := by
  cases follows with
  | order rested command => exact balanced.replies_atRest rested
  | work planned => rfl

/-! ## Whole runs -/

namespace Run

variable {turns : List Turn} {machine : Machine}

/-- The replies of a machine at rest are those that the next command starts from. -/
theorem replies_atRest
    (run : Run turns machine)
    (rested : machine.tasks = []) :
    (Machine.atRest machine.session).replies = machine.replies :=
  run.balanced.replies_atRest rested

/-- A turn starts from the replies of the machine that it follows. -/
theorem replies_before
    (run : Run turns machine)
    {turn : Turn}
    (follows : turn.Follows machine) :
    turn.before.replies = machine.replies :=
  follows.replies_before run.balanced

/-- What each deed of a run hands on holds of all live replies. -/
theorem forall_replies
    (run : Run turns machine)
    (property : Response → Prop)
    (law :
      ∀ turn ∈ turns,
        (∀ reply ∈ turn.deed.used, property reply) →
          ∀ reply ∈ turn.deed.yielded, property reply) :
    ∀ reply ∈ machine.replies, property reply := by
  induction run with
  | start =>
      intro reply member
      contradiction
  | @order turns machine run rested command inductionHypothesis =>
      obtain ⟨earlier, now⟩ := List.forall_mem_append.mp law
      have before := inductionHypothesis earlier
      rw [← run.replies_atRest rested] at before
      have handedOn := now _ (List.mem_singleton.mpr rfl)
      exact
        Turn.forall_after (.order machine.session command) before
          (handedOn fun reply member =>
            before reply (Turn.used_subset _ member))
  | @work turns machine run task later planned inductionHypothesis =>
      obtain ⟨earlier, now⟩ := List.forall_mem_append.mp law
      have before := inductionHypothesis earlier
      have handedOn := now _ (List.mem_singleton.mpr rfl)
      exact
        Turn.forall_after (.work { machine with tasks := later } task)
          before
          (handedOn fun reply member =>
            before reply (Turn.used_subset _ member))

end Run

end Reply
