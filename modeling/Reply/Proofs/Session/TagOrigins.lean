import Reply.Proofs.Session.Fields
import Reply.Proofs.Session.Finalizing
import Reply.Proofs.Session.HeaderSections

namespace Reply

/-!
# Where entity tags come from

A tag gets into the header section of a reply by revalidating it and by finalizing it,
and only clearing takes it out.  It is the tag of the content that the reply has then.
Whether it still is depends on what is done to the reply afterwards, which its history
tells: the deeds that take up a reply of this identity.
-/

/-! ## Histories -/

open Classical in
/-- Replies are neither lost nor doubled: what a deed takes up gives way to its yield. -/
theorem Turn.perm_replies
    (turn : Turn) :
    (turn.after.replies ++ turn.deed.used).Perm
      (turn.before.replies ++ turn.deed.yielded) := by
  apply List.perm_iff_count.mpr
  intro reply
  have flow := turn.flow fun other => [id other].count reply
  simp only [sumOf_count_singleton, List.map_id] at flow
  rw [List.count_append, List.count_append]
  exact flow

open Classical in
/-- What lives on under the identity of a reply that a deed takes up is what it yields. -/
theorem Turn.mem_yielded_of_used
    {turn : Turn}
    (single : (turn.before.replies.map Buffered.id).Nodup)
    {before after : Response}
    (taken : before ∈ turn.deed.used)
    (living : after ∈ turn.after.replies)
    (same : after.id = before.id) :
    after ∈ turn.deed.yielded := by
  by_contra notYielded
  have counted := turn.perm_replies.count_eq after
  rw [List.count_append, List.count_append,
    List.count_eq_zero.mpr notYielded] at counted
  have here := List.count_pos_iff.mpr living
  have wasLiving : after ∈ turn.before.replies := by
    apply List.count_pos_iff.mp
    omega
  have isBefore : after = before :=
    List.inj_on_of_nodup_map single wasLiving (turn.used_subset taken) same
  subst isBefore
  -- It is there once, is used up and is not yielded: then it cannot be there still.
  have used := List.count_pos_iff.mpr taken
  have once := List.nodup_iff_count_le_one.mp single.of_map after
  omega

/--
What holds of the replies that deeds yield, provided that it held of those they took
up, and stays true while no deed takes up a reply of this identity, holds of all live
replies.
-/
theorem Run.forall_histories
    {turns : List Turn}
    {machine : Machine}
    (run : Run turns machine)
    (property : List Turn → Response → Prop)
    (stays :
      ∀ former turn reply,
        property former reply →
          (∀ used ∈ turn.deed.used, used.id ≠ reply.id) →
            property (former ++ [turn]) reply)
    (law :
      ∀ former prior turn,
        Run former prior →
          turn.Follows prior →
            turn ∈ turns →
              (∀ used ∈ turn.deed.used, used.Settled ∧ property former used) →
                ∀ reply ∈ turn.deed.yielded,
                  property (former ++ [turn]) reply) :
    ∀ reply ∈ machine.replies, property turns reply := by
  induction turns using List.reverseRecOn generalizing machine with
  | nil =>
      rw [Run.start.unique run]
      intro reply living
      contradiction
  | append_singleton former turn inductionHypothesis =>
      obtain ⟨prior, begun, follows, rfl⟩ := run.exists_of_snoc
      have held :=
        inductionHypothesis begun fun former prior turn run follows member =>
          law former prior turn run follows (List.mem_append_left _ member)
      have living := begun.replies_before follows
      have taken :
          ∀ used ∈ turn.deed.used, used.Settled ∧ property former used := by
        intro used member
        have wasLiving := living ▸ turn.used_subset member
        exact ⟨begun.settled used wasLiving, held used wasLiving⟩
      intro reply isLiving
      by_cases yielded : reply ∈ turn.deed.yielded
      · exact
          law former prior turn begun follows
            (List.mem_append_right _ List.mem_cons_self) taken reply yielded
      · have wasLiving :=
          (turn.mem_replies_after isLiving).resolve_right yielded
        rw [living] at wasLiving
        refine stays former turn reply (held reply wasLiving) ?_
        intro used member same
        refine yielded (Turn.mem_yielded_of_used ?_ member isLiving same.symm)
        rw [living]
        exact begun.nodup_live_ids

/-! ## Since -/

/-- A turn of a kind after which none came that ends it. -/
def Since (turns : List Turn) (kind ended : Turn → Prop) : Prop :=
  ∃ former turn later,
    turns = former ++ turn :: later ∧ kind turn ∧ ∀ next ∈ later, ¬ended next

namespace Since

variable {turns : List Turn} {kind ended : Turn → Prop} {turn : Turn}

theorem not_nil : ¬Since [] kind ended := by
  rintro ⟨former, first, later, split, -⟩
  exact List.append_ne_nil_of_right_ne_nil former (List.cons_ne_nil _ _) split.symm

/-- One more turn is of the kind, or does not end what was so before. -/
theorem append_iff :
    Since (turns ++ [turn]) kind ended ↔
      kind turn ∨ (Since turns kind ended ∧ ¬ended turn) := by
  constructor
  · rintro ⟨former, first, later, split, now, none⟩
    rcases List.eq_nil_or_concat later with rfl | ⟨between, last, rfl⟩
    · obtain ⟨-, same⟩ := List.append_inj' split rfl
      rw [List.singleton_inj.mp same]
      exact Or.inl now
    · rw [List.concat_eq_append] at split none
      rw [← List.cons_append, ← List.append_assoc] at split
      obtain ⟨rfl, same⟩ := List.append_inj' split rfl
      obtain ⟨earlier, notLast⟩ := List.forall_mem_append.mp none
      rw [List.singleton_inj.mp same]
      exact
        Or.inr
          ⟨⟨former, first, between, rfl, now, earlier⟩,
            notLast last List.mem_cons_self⟩
  · rintro (now | ⟨⟨former, first, later, rfl, now, none⟩, goesOn⟩)
    · exact ⟨turns, turn, [], rfl, now, List.forall_mem_nil _⟩
    · refine ⟨former, first, later ++ [turn], by simp, now, ?_⟩
      exact
        List.forall_mem_append.mpr ⟨none, List.forall_mem_singleton.mpr goesOn⟩

/-- Of two kinds of turns that end each other one at most is the last. -/
theorem not_both
    {other otherEnded : Turn → Prop}
    (apart : ∀ turn, kind turn → ¬other turn)
    (ends : ∀ turn, kind turn → otherEnded turn)
    (otherEnds : ∀ turn, other turn → ended turn)
    (since : Since turns kind ended) :
    ¬Since turns other otherEnded := by
  induction turns using List.reverseRecOn with
  | nil => exact absurd since not_nil
  | append_singleton turns turn inductionHypothesis =>
      rw [append_iff] at since ⊢
      rintro (otherNow | ⟨otherSince, notEnded⟩)
      · rcases since with now | ⟨-, goesOn⟩
        · exact apart turn now otherNow
        · exact goesOn (otherEnds turn otherNow)
      · rcases since with now | ⟨earlier, -⟩
        · exact notEnded (ends turn now)
        · exact inductionHypothesis earlier otherSince

end Since

/-! ## Tags and what becomes of them -/

namespace Buffered

/-- The values of the tag's field. -/
def etags {η : Type} (reply : Buffered η) : List Field.Value :=
  reply.message.headers.values .etag

/-- One reply has the status and the content of another. -/
def Agrees {η : Type} (reply other : Buffered η) : Prop :=
  reply.message.status = other.message.status ∧ reply.payload = other.payload

end Buffered

/-- Whether a deed sets the tag's field by its name. -/
def Deed.setsTag : Deed → Bool
  | .stepped _ _ (.setField name _) =>
      decide (Field.Name.ofText? name = some .etag)
  | _ => false

namespace Turn

/-- The turn neither sets the tag's field by its name nor adopts a message with a tag. -/
def LeavesTags (turn : Turn) : Prop :=
  turn.deed.setsTag = false ∧
    ∀ message ∈ turn.adopted?, message.headers.values .etag = []

instance (turn : Turn) : Decidable turn.LeavesTags :=
  inferInstanceAs (Decidable (_ ∧ _))

/-- The turn clears the reply, or puts its present tag in. -/
def Refreshes (id : Nat) (turn : Turn) : Prop :=
  ∃ reply : Response,
    reply.id = id ∧
      ((∃ session, turn.deed = .stepped session reply .clear) ∨
        ((turn.deed = .finalized reply ∨
            ∃ session, turn.deed = .stepped session reply .revalidate) ∧
          reply.tag?.isSome = true))

/-- The turn tells a client that it holds the content, whose tag it puts in. -/
def Matches (id : Nat) (tag : String) (turn : Turn) : Prop :=
  ∃ session reply,
    turn.deed = .stepped session reply .revalidate ∧
      reply.id = id ∧
      reply.tag? = some tag ∧
      reply.expected = some tag

/-- The turn changes status or content of the reply and leaves it a tag. -/
def Outdates (id : Nat) (turn : Turn) : Prop :=
  ∃ session reply step,
    turn.deed = .stepped session reply step ∧
      reply.id = id ∧
      step ≠ .revalidate ∧
      (∀ slot, step ≠ .relocate slot) ∧
      (step.apply session reply).reply.etags ≠ [] ∧
      ¬(step.apply session reply).reply.Agrees reply

end Turn

/--
What a tag on a reply means: it is the tag of the content of a 200 reply, or the reply
became a 304 reply when a client held this tag, and is as it was then.
-/
def Buffered.TagMeant (turns : List Turn) (reply : Response) : Prop :=
  reply.etags = [] ∨
    ∃ tag,
      reply.etags = [⟨utf8 tag⟩] ∧
        ((reply.message.status = .ok ∧
            reply.payload.isEmpty = false ∧
            reply.payload.tag? = some tag) ∨
          (reply.message.status = .notModified ∧
            Since turns (Turn.Matches reply.id tag) fun next =>
              next.Refreshes reply.id ∨ next.Outdates reply.id))

/-- The reply's tag was left over when status or content changed, and still is there. -/
def Buffered.Outdated (turns : List Turn) (reply : Response) : Prop :=
  Since turns (Turn.Outdates reply.id) (Turn.Refreshes reply.id)

/-! ## What a step does to tags -/

namespace Buffered

variable {η : Type}

theorem tag?_eq_some_iff {reply : Buffered η} {tag : String} :
    reply.tag? = some tag ↔
      reply.message.status = .ok ∧
        reply.payload.isEmpty = false ∧
        reply.payload.tag? = some tag := by
  unfold tag? Payload.tag?
  split <;> split <;> simp_all

/-- Finalizing a reply without a tag leaves identity, tag field, status and content. -/
theorem finalize_of_untagged
    {reply : Buffered η}
    (untagged : reply.tag? = none) :
    reply.finalize.value.1.id = reply.id ∧
      reply.finalize.value.1.etags = reply.etags ∧
      reply.finalize.value.1.Agrees reply := by
  rw [finalize_value, tagged_of_none untagged]
  split <;> exact ⟨rfl, rfl, rfl, rfl⟩

end Buffered

/-- Only clearing and revalidating touch the tag, unless its field is set by name. -/
theorem Step.etags_apply
    (step : Step)
    (session : Session)
    (reply : Response)
    (inPlace : ∀ slot, step ≠ .relocate slot)
    (notCleared : step ≠ .clear)
    (notRevalidated : step ≠ .revalidate)
    (notSet :
      ∀ name octets, step = .setField name octets →
        Field.Name.ofText? name ≠ some .etag) :
    (step.apply session reply).reply.etags = reply.etags := by
  have kept := fun untouched : Field.Name.etag ∉ step.touches =>
    step.get?_apply session reply notCleared inPlace untouched
  unfold Buffered.etags Headers.values
  cases step with
  | setField name octets =>
      have other := notSet name octets rfl
      rw [kept (by simpa only [touches, Option.mem_toList] using other)]
  | revalidate => exact absurd rfl notRevalidated
  | finalize => rfl
  | _ => rw [kept (by simp +decide [touches])]

/-! ## Tags in every state -/

namespace Buffered

variable
    {turns : List Turn}
    {turn : Turn}
    {reply other : Response}
    {tag : String}

/--
The reply has no tag and none was left over, or its tag means what it should, or is one
that was left over.
-/
def Accounted (turns : List Turn) (reply : Response) : Prop :=
  (reply.etags = [] ∧ ¬reply.Outdated turns) ∨
    (reply.etags ≠ [] ∧ (reply.TagMeant turns ∨ reply.Outdated turns))

/-- The tag of a reply's own content means what it should. -/
theorem tagMeant_of_tag?
    (current : reply.tag? = some tag)
    (single : reply.etags = [⟨utf8 tag⟩]) :
    reply.TagMeant turns :=
  Or.inr ⟨tag, single, Or.inl (tag?_eq_some_iff.mp current)⟩

theorem accounted_of_tagMeant
    (single : reply.etags = [⟨utf8 tag⟩])
    (meant : reply.TagMeant turns) :
    reply.Accounted turns :=
  Or.inr ⟨single ▸ List.cons_ne_nil _ _, Or.inl meant⟩

/-- What a tag means depends on identity, tag, status and content only. -/
theorem TagMeant.congr
    (meant : reply.TagMeant turns)
    (named : other.id = reply.id)
    (tagged : other.etags = reply.etags)
    (agrees : other.Agrees reply) :
    other.TagMeant turns := by
  obtain ⟨status, payload⟩ := agrees
  unfold TagMeant at meant ⊢
  rw [named, tagged, status, payload]
  exact meant

theorem outdated_congr (named : other.id = reply.id) :
    other.Outdated turns ↔ reply.Outdated turns := by
  rw [Outdated, Outdated, named]

theorem Accounted.congr
    (accounted : reply.Accounted turns)
    (named : other.id = reply.id)
    (tagged : other.etags = reply.etags)
    (agrees : other.Agrees reply) :
    other.Accounted turns := by
  unfold Accounted at accounted ⊢
  rw [tagged, outdated_congr named]
  exact
    accounted.imp_right fun ⟨present, meant⟩ =>
      ⟨present, meant.imp_left fun meant => meant.congr named tagged agrees⟩

/-- A turn that neither refreshes nor outdates the tag leaves it what it is. -/
theorem Accounted.append
    (accounted : reply.Accounted turns)
    (kept : ¬turn.Refreshes reply.id)
    (current : ¬turn.Outdates reply.id) :
    reply.Accounted (turns ++ [turn]) := by
  rcases accounted with ⟨bare, never⟩ | ⟨present, meant | outdated⟩
  · refine Or.inl ⟨bare, ?_⟩
    rw [Outdated, Since.append_iff]
    exact not_or.mpr ⟨current, fun earlier => never earlier.1⟩
  · refine Or.inr ⟨present, Or.inl ?_⟩
    refine meant.imp_right fun ⟨tag, single, origin⟩ => ⟨tag, single, ?_⟩
    refine origin.imp_right fun ⟨status, since⟩ => ⟨status, ?_⟩
    exact Since.append_iff.mpr (Or.inr ⟨since, not_or.mpr ⟨kept, current⟩⟩)
  · exact
      Or.inr
        ⟨present, Or.inr (Since.append_iff.mpr (Or.inr ⟨outdated, kept⟩))⟩

end Buffered

namespace Turn

variable
    {turn : Turn}
    {session : Session}
    {reply : Response}
    {step : Step}
    {id : Nat}
    {tag : String}

/-- A turn that takes up no reply of an identity leaves its tag alone. -/
theorem not_refreshes_of_not_used
    (other : ∀ used ∈ turn.deed.used, used.id ≠ id) :
    ¬turn.Refreshes id := by
  rintro ⟨reply, named, ⟨session, cleared⟩ | ⟨finalized | ⟨session, asked⟩, -⟩⟩
  all_goals
    refine other reply ?_ named
    simp only [*, Deed.used, List.mem_singleton]

/-- A turn that outdates the tag of an identity takes up a reply that has it. -/
theorem Outdates.exists_used (outdates : turn.Outdates id) :
    ∃ used ∈ turn.deed.used, used.id = id := by
  obtain ⟨session, reply, step, stepped, named, -⟩ := outdates
  refine ⟨reply, ?_, named⟩
  rw [stepped]
  exact List.mem_singleton.mpr rfl

/-- What a step changes that outdates a tag. -/
theorem Outdates.of_stepped
    (outdates : turn.Outdates id)
    (stepped : turn.deed = .stepped session reply step) :
    step ≠ .revalidate ∧
      (∀ slot, step ≠ .relocate slot) ∧
      (step.apply session reply).reply.etags ≠ [] ∧
      ¬(step.apply session reply).reply.Agrees reply := by
  obtain ⟨_, _, _, again, -, rest⟩ := outdates
  rw [stepped] at again
  injection again with sameSession sameReply sameStep
  subst sameSession sameReply sameStep
  exact rest

/-- Only steps outdate tags. -/
theorem not_outdates_of_not_stepped
    (other : ∀ session reply step, turn.deed ≠ .stepped session reply step) :
    ¬turn.Outdates id := by
  rintro ⟨session, reply, step, stepped, -⟩
  exact other session reply step stepped

/-- Of all steps only clearing and revalidating refresh tags. -/
theorem not_refreshes_of_stepped
    (stepped : turn.deed = .stepped session reply step)
    (notCleared : step ≠ .clear)
    (untagged : step = .revalidate → reply.tag? = none) :
    ¬turn.Refreshes id := by
  rintro ⟨other, -, ⟨former, cleared⟩ | ⟨finalized | ⟨former, asked⟩, some⟩⟩
  · rw [stepped] at cleared
    injection cleared with _ _ isClear
    exact notCleared isClear
  · rw [stepped] at finalized
    contradiction
  · rw [stepped] at asked
    injection asked with _ same isRevalidate
    rw [← same, untagged isRevalidate] at some
    contradiction

/-- Finalizing a reply without a tag of its own refreshes none. -/
theorem not_refreshes_of_finalized
    (finalized : turn.deed = .finalized reply)
    (untagged : reply.tag? = none) :
    ¬turn.Refreshes id := by
  rintro ⟨other, -, ⟨former, cleared⟩ | ⟨again | ⟨former, asked⟩, some⟩⟩
  · rw [finalized] at cleared
    contradiction
  · rw [finalized] at again
    injection again with same
    rw [← same, untagged] at some
    contradiction
  · rw [finalized] at asked
    contradiction

/-- Only steps and finalize calls refresh tags. -/
theorem not_refreshes_of_not_asked
    (noStep : ∀ session reply step, turn.deed ≠ .stepped session reply step)
    (noFinalize : ∀ reply, turn.deed ≠ .finalized reply) :
    ¬turn.Refreshes id := by
  rintro ⟨reply, -, ⟨session, cleared⟩ | ⟨finalized | ⟨session, asked⟩, -⟩⟩
  · exact noStep session reply .clear cleared
  · exact noFinalize reply finalized
  · exact noStep session reply .revalidate asked

/-- Telling a client that it holds the content refreshes the tag and outdates none. -/
theorem Matches.refreshes (matched : turn.Matches id tag) :
    turn.Refreshes id := by
  obtain ⟨session, reply, asked, named, current, -⟩ := matched
  refine ⟨reply, named, Or.inr ⟨Or.inr ⟨session, asked⟩, ?_⟩⟩
  rw [current]
  rfl

theorem Matches.not_outdates (matched : turn.Matches id tag) :
    ¬turn.Outdates id := by
  obtain ⟨session, reply, asked, -⟩ := matched
  exact fun outdates => (outdates.of_stepped asked).1 rfl

end Turn

namespace Buffered.Accounted

variable {turns : List Turn} {reply : Response}

/-- A tag that was not left over means what it should. -/
theorem tagMeant
    (accounted : reply.Accounted turns)
    (current : ¬reply.Outdated turns) :
    reply.TagMeant turns := by
  rcases accounted with ⟨bare, -⟩ | ⟨-, meant | outdated⟩
  · exact Or.inl bare
  · exact meant
  · exact absurd outdated current

/-- A tag that means what it should, and not by the reply's content, was not left over. -/
theorem not_outdated
    (accounted : reply.Accounted turns)
    (meant : reply.TagMeant turns)
    (untagged : reply.tag? = none) :
    ¬reply.Outdated turns := by
  rcases accounted with ⟨-, never⟩ | ⟨present, -⟩
  · exact never
  rcases meant with bare | ⟨tag, -, own | ⟨-, since⟩⟩
  · exact absurd bare present
  · rw [tag?_eq_some_iff.mpr own] at untagged
    contradiction
  · exact
      Since.not_both
        (fun _ matched => matched.not_outdates)
        (fun _ matched => matched.refreshes)
        (fun _ outdates => Or.inr outdates)
        since

end Buffered.Accounted

namespace Turn

variable
    {turn : Turn}
    {session : Session}
    {reply : Response}
    {step : Step}

section

variable
    {former : List Turn}
    (accounted : reply.Accounted former)

include accounted

/-- Revalidating leaves the tag of the content, or of what a client holds. -/
theorem accounted_revalidated
    (asked : turn.deed = .stepped session reply .revalidate) :
    reply.revalidate.value.Accounted (former ++ [turn]) := by
  have named : reply.revalidate.value.id = reply.id :=
    (Buffered.Kept.revalidate reply).id
  cases current : reply.tag? with
  | none =>
      rw [Buffered.revalidate_of_none current]
      refine accounted.append ?_ ?_
      · exact not_refreshes_of_stepped asked (by simp) fun _ => current
      · exact fun outdates => (outdates.of_stepped asked).1 rfl
  | some tag =>
      have single := Buffered.values_etag_revalidate current
      apply Buffered.accounted_of_tagMeant single
      by_cases held : reply.expected = some tag
      · have answered := Buffered.notModified_revalidate current held
        refine Or.inr ⟨tag, single, Or.inr ⟨answered.status, ?_⟩⟩
        rw [named, Since.append_iff]
        exact Or.inl ⟨session, reply, asked, rfl, current, held⟩
      · refine Buffered.tagMeant_of_tag? ?_ single
        rw [Buffered.revalidate_of_not_held current held]
        exact (reply.tag?_withTag tag).trans current

/-- A step that leaves the tag alone outdates it if it changes status or content. -/
theorem accounted_inPlace
    (stepped : turn.deed = .stepped session reply step)
    (stays : step.InPlace session reply)
    (notCleared : step ≠ .clear)
    (notRevalidated : step ≠ .revalidate)
    (tagged : (step.apply session reply).reply.etags = reply.etags) :
    (step.apply session reply).reply.Accounted (former ++ [turn]) := by
  have kept : ¬turn.Refreshes reply.id :=
    not_refreshes_of_stepped stepped notCleared (absurd · notRevalidated)
  -- Whether the turn outdates the tag depends on what the step changes only.
  by_cases agrees : (step.apply session reply).reply.Agrees reply
  · refine (accounted.append kept ?_).congr stays.id tagged agrees
    exact fun outdates => (outdates.of_stepped stepped).2.2.2 agrees
  · unfold Buffered.Accounted at accounted ⊢
    rw [tagged, Buffered.outdated_congr stays.id, Buffered.Outdated,
      Since.append_iff]
    rcases accounted with ⟨bare, never⟩ | ⟨present, -⟩
    · refine Or.inl ⟨bare, not_or.mpr ⟨?_, fun earlier => never earlier.1⟩⟩
      exact fun outdates =>
        (outdates.of_stepped stepped).2.2.1 (tagged.trans bare)
    · refine Or.inr ⟨present, Or.inr (Or.inl ?_)⟩
      exact
        ⟨session, reply, step, stepped, rfl, notRevalidated,
          stays.ne_relocate, tagged ▸ present, agrees⟩

/-- Finalizing leaves the tag of the content, or changes nothing about it. -/
theorem accounted_finalized (finalized : turn.deed = .finalized reply) :
    reply.finalize.value.1.Accounted (former ++ [turn]) := by
  cases current : reply.tag? with
  | none =>
      obtain ⟨named, tagged, agrees⟩ :=
        Buffered.finalize_of_untagged current
      refine (accounted.append ?_ ?_).congr named tagged agrees
      · exact not_refreshes_of_finalized finalized current
      · exact not_outdates_of_not_stepped (by simp [finalized])
  | some tag =>
      have single := Buffered.values_etag_finalize current
      refine
        Buffered.accounted_of_tagMeant single
          (Buffered.tagMeant_of_tag? ?_ single)
      rw [Buffered.tag?_finalize, current]

end

/-- A step asked of an accounted reply leaves accounted replies. -/
theorem accounted_stepped
    {former : List Turn}
    (accounted : reply.Accounted former)
    (leaves : turn.LeavesTags)
    (fresh : ∀ other ∈ turn.deed.born, ¬Since (former ++ [turn])
      (Outdates other) (Refreshes other))
    (stepped : turn.deed = .stepped session reply step)
    (settled : reply.Settled) :
    ∀ left ∈ (step.apply session reply).replies,
      left.Accounted (former ++ [turn]) := by
  rcases step.relocates_or_inPlace session reply with ⟨slot, rfl⟩ | stays
  · intro left member
    rcases List.mem_cons.mp member with rfl | moved
    · refine Or.inl ⟨rfl, fresh session.nextId ?_⟩
      rw [stepped]
      exact List.mem_singleton.mpr rfl
    · rw [List.mem_singleton.mp moved, settled.relocate_eq]
      refine accounted.append ?_ ?_
      · exact not_refreshes_of_stepped stepped (by simp) (by simp)
      · exact fun outdates => (outdates.of_stepped stepped).2.1 slot rfl
  · refine forall_replies_of_sequel stays.carried ?_
    by_cases cleared : step = .clear
    · subst cleared
      refine Or.inl ⟨rfl, ?_⟩
      rw [Buffered.Outdated, Since.append_iff]
      rintro (outdates | ⟨-, kept⟩)
      · exact (outdates.of_stepped stepped).2.2.1 rfl
      · exact kept ⟨reply, rfl, Or.inl ⟨session, stepped⟩⟩
    by_cases revalidated : step = .revalidate
    · subst revalidated
      exact accounted_revalidated accounted stepped
    refine accounted_inPlace accounted stepped stays cleared revalidated ?_
    refine
      step.etags_apply session reply stays.ne_relocate cleared revalidated ?_
    rintro name octets rfl
    have notSet := leaves.1
    rw [stepped] at notSet
    exact of_decide_eq_false notSet

/-- What a deed yields is accounted for if what it takes up was. -/
theorem accounted_yielded
    {former turns : List Turn}
    (member : turn ∈ turns)
    (leaves : ∀ turn ∈ turns, turn.LeavesTags)
    (fresh : ∀ other ∈ turn.deed.born, ¬Since (former ++ [turn])
      (Outdates other) (Refreshes other))
    (taken :
      ∀ used ∈ turn.deed.used, used.Settled ∧ used.Accounted former) :
    ∀ left ∈ turn.deed.yielded, left.Accounted (former ++ [turn]) := by
  intro left yielded
  cases done : turn.deed with
  | idle | letGo | destroyed =>
      rw [done] at yielded
      contradiction
  | made reply =>
      rw [done] at yielded fresh
      obtain rfl := List.mem_singleton.mp yielded
      refine Or.inl ⟨?_, fresh left.id (List.mem_singleton.mpr rfl)⟩
      rcases List.mem_cons.mp (mem_origins_of_made member done)
        with blank | adopted
      · rw [Buffered.etags, blank]
        rfl
      · obtain ⟨message, given, same⟩ := List.mem_map.mp adopted
        obtain ⟨adopting, inTurns, adopts⟩ := List.mem_filterMap.mp given
        rw [Buffered.etags, ← same]
        exact (leaves adopting inTurns).2 message adopts
  | stepped session reply step =>
      rw [done] at yielded taken
      obtain ⟨settled, accounted⟩ := taken reply (List.mem_singleton.mpr rfl)
      exact
        accounted_stepped accounted (leaves turn member) fresh done settled
          left yielded
  | finalized reply =>
      rw [done] at yielded taken
      obtain rfl := List.mem_singleton.mp yielded
      obtain ⟨-, accounted⟩ := taken reply (List.mem_singleton.mpr rfl)
      exact accounted_finalized accounted done
  | unwrapped fresh reply =>
      rw [done] at yielded taken
      obtain ⟨settled, accounted⟩ := taken reply (List.mem_singleton.mpr rfl)
      rw [List.mem_singleton.mp yielded, settled.relocate_eq]
      refine accounted.append ?_ ?_
      · exact
          not_refreshes_of_not_asked (by simp [done]) (by simp [done])
      · exact not_outdates_of_not_stepped (by simp [done])

end Turn

namespace Run

variable {turns former : List Turn} {machine prior : Machine}

/-- A tag can be outdated only under an identity that was given out. -/
theorem mem_identitiesGiven_of_outdated
    (run : Run turns machine)
    {id : Nat}
    (outdated : Since turns (Turn.Outdates id) (Turn.Refreshes id)) :
    id ∈ identitiesGiven turns := by
  obtain ⟨former, turn, later, rfl, outdates, -⟩ := outdated
  obtain ⟨prior, begun, follows, -⟩ := run.exists_of_append
  obtain ⟨used, taken, rfl⟩ := outdates.exists_used
  rw [identitiesGiven_append]
  apply List.mem_append_left
  apply begun.id_mem_identitiesGiven
  rw [← begun.replies_before follows]
  exact turn.used_subset taken

/-- No tag is outdated under an identity that a turn gives out. -/
theorem not_outdated_of_born
    (run : Run former prior)
    {turn : Turn}
    (follows : turn.Follows prior) :
    ∀ id ∈ turn.deed.born,
      ¬Since (former ++ [turn]) (Turn.Outdates id) (Turn.Refreshes id) := by
  intro id born
  have law := run.keepsIdentities follows
  rw [Since.append_iff]
  rintro (outdates | ⟨outdated, -⟩)
  · obtain ⟨used, taken, rfl⟩ := outdates.exists_used
    have wasLiving := turn.used_subset taken
    rw [run.replies_before follows] at wasLiving
    exact law.unused _ born (run.id_mem_identitiesGiven used wasLiving)
  · exact law.unused id born (run.mem_identitiesGiven_of_outdated outdated)

/-- In every run that leaves tags alone each reply's tag is accounted for. -/
theorem accounted
    (run : Run turns machine)
    (leaves : ∀ turn ∈ turns, turn.LeavesTags) :
    ∀ reply ∈ machine.replies, reply.Accounted turns := by
  refine run.forall_histories (fun turns reply => reply.Accounted turns) ?_ ?_
  · intro former turn reply accounted other
    refine accounted.append (Turn.not_refreshes_of_not_used other) ?_
    intro outdates
    obtain ⟨used, taken, named⟩ := outdates.exists_used
    exact other used taken named
  · intro former prior turn begun follows member taken
    exact
      Turn.accounted_yielded member leaves
        (begun.not_outdated_of_born follows) taken

end Run

/-! ## The law and its exception -/

/-- Finalizing a pending reply fires its handler. -/
theorem Turn.fired_of_pending
    {machine : Machine}
    {reply : Response}
    {below : List Response}
    {handler : Handler}
    (hand : machine.hand = reply :: below)
    (pending : reply.completed = false)
    (attached : reply.handler = some handler) :
    Event.fired handler.serial handler.name reply.finalize.value.1
        (Probe.isAlive machine.session.flags
          reply.finalize.value.1.probe) ∈
      (Turn.work machine .finalize).events := by
  have due : reply.finalize.value.2 = some handler := by
    rw [Buffered.finalize_value, pending]
    exact attached
  rw [Turn.events_finalize hand, due]
  exact List.mem_append_right _ (List.mem_singleton.mpr rfl)

/--
In a run that leaves tags alone a reply's tag means what it should, unless status or
content changed when the tag was there and the reply was neither cleared nor tagged
anew since.  The tag of a reply that a finalize call hands to a handler means what it
should exactly if this is not so or the reply has a tag of its own to be put in.
-/
theorem tag_meant_at_completion :
    ∀ turns machine,
      Run turns machine →
        (∀ turn ∈ turns, turn.LeavesTags) →
          (∀ reply ∈ machine.replies,
            ¬reply.Outdated turns → reply.TagMeant turns) ∧
            ∀ former before later,
              turns = former ++ .work before .finalize :: later →
                ∀ event ∈ (Turn.work before .finalize).events,
                  ∀ given, event.reply? = some given →
                    (given.TagMeant former ↔
                      (given.tag? = none → ¬given.Outdated former)) := by
  intro turns machine run leaves
  constructor
  · intro reply living current
    exact (run.accounted leaves reply living).tagMeant current
  · rintro former before later rfl event member given concerns
    obtain ⟨prior, begun, follows, -⟩ := run.exists_of_append
    obtain ⟨top, below, handler, hand, -, rfl⟩ :=
      Turn.due_of_fired member concerns
    have living : top ∈ prior.replies := by
      rw [← begun.replies_before follows]
      exact before.mem_replies_of_hand hand
    have accounted :=
      begun.accounted
        (fun turn member => leaves turn (List.mem_append_left _ member))
        top living
    rw [Buffered.tag?_finalize]
    cases own : top.tag? with
    | some tag =>
        refine iff_of_true ?_ (absurd · (Option.some_ne_none tag))
        refine
          Buffered.tagMeant_of_tag? ?_ (Buffered.values_etag_finalize own)
        rw [Buffered.tag?_finalize, own]
    | none =>
        obtain ⟨named, tagged, agrees⟩ := Buffered.finalize_of_untagged own
        have handed := accounted.congr named tagged agrees
        constructor
        · intro meant _
          refine handed.not_outdated meant ?_
          rw [Buffered.tag?_finalize, own]
        · intro current
          exact handed.tagMeant (current rfl)

/--
A reply is tagged and its content replaced before it is finalized: its handler is given
the tag of the new content.
-/
theorem tag_meant_at_completion_replaced :
    ∃ (turns : List Turn) (machine : Machine) (former : List Turn)
        (before : Machine) (event : Event) (given : Response),
      Run turns machine ∧
        (∀ turn ∈ turns, turn.LeavesTags) ∧
        turns = former ++ [.work before .finalize] ∧
        event ∈ (Turn.work before .finalize).events ∧
        event.reply? = some given ∧
        given.message.status = .ok ∧
        given.payload = .bool false ∧
        given.TagMeant former := by
  have stored := (Run.start.order rfl (.create "a")).work rfl
  have filled :=
    (stored.order rfl (.act "a" (.ask (.setPayload (.bool true))))).work rfl
  have tagged := (filled.order rfl (.act "a" (.ask .revalidate))).work rfl
  have replaced :=
    (tagged.order rfl (.act "a" (.ask (.setPayload (.bool false))))).work rfl
  have armed :=
    (replaced.order rfl (.act "a" (.ask (.setHandler "h" [])))).work rfl
  have fired := (armed.order rfl (.act "a" (.ask .finalize))).work rfl
  have handed :=
    (tag_meant_at_completion _ _ fired (by decide +kernel)).2 _ _ [] rfl _
      (Turn.fired_of_pending rfl rfl rfl) _ rfl
  exact
    ⟨_, _, _, _, _, _, fired, by decide +kernel, rfl,
      Turn.fired_of_pending rfl rfl rfl, rfl, by decide +kernel, rfl,
      handed.mpr fun untagged => absurd untagged (by decide +kernel)⟩

/--
The first handler of a reply sets its status to 500 and finalizes it again: the second
handler is given the tag of a 200 reply.
-/
theorem tag_outlives_status :
    ∃ (turns : List Turn) (machine : Machine) (former : List Turn)
        (before : Machine) (event : Event) (given : Response),
      Run turns machine ∧
        (∀ turn ∈ turns, turn.LeavesTags) ∧
        turns = former ++ [.work before .finalize] ∧
        event ∈ (Turn.work before .finalize).events ∧
        event.reply? = some given ∧
        given.message.status.code = 500 ∧
        ¬given.TagMeant former := by
  have stored := (Run.start.order rfl (.create "a")).work rfl
  have filled :=
    (stored.order rfl (.act "a" (.ask (.setPayload (.bool true))))).work rfl
  have armed :=
    (filled.order rfl
      (.act "a"
        (.ask
          (.setHandler "first"
            [("set_status_code", .setStatus 500),
              ("set_handler", .setHandler "second" []),
              ("finalize", .finalize)])))).work rfl
  have first := (armed.order rfl (.act "a" (.ask .finalize))).work rfl
  have failed := (first.work rfl).work rfl
  have rearmed := (failed.work rfl).work rfl
  have second := (rearmed.work rfl).work rfl
  refine
    ⟨_, _, _, _, _, _, second, by decide +kernel, rfl,
      Turn.fired_of_pending rfl rfl rfl, rfl, by decide +kernel, ?_⟩
  rintro (bare | ⟨tag, -, ⟨ok, -⟩ | ⟨notModified, -⟩⟩)
  · exact absurd bare (by decide +kernel)
  · exact absurd ok (by decide +kernel)
  · exact absurd notModified (by decide +kernel)

end Reply
