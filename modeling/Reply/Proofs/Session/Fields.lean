import Reply.Proofs.Connection
import Reply.Proofs.Preparation
import Reply.Proofs.Session.Identities
import Reply.Proofs.Session.StreamedMessage

namespace Reply

/-!
# Fields that are left alone

Each step may change a few fields of the header section, those it is about, and keeps
all values of every other field in their order.  Only clearing forgets them all.  So in
a run a field of a reply is what it was, wherever the reply went, unless one of the
deeds done to that very reply was about this field or cleared it.
-/

/-! ## What touches which field -/

/-- The fields that a step may change; clearing and relocating are apart. -/
def Step.touches : Step → List Field.Name
  | .setField name _ => (Field.Name.ofText? name).toList
  | .keepAlive _ => [.connection]
  | .frame => [.contentLength, .transferEncoding]
  | .render => [.contentType]
  | .revalidate => [.etag, .contentType, .contentLength]
  | .finalize => [.etag]
  | _ => []

/-- Whether a deed leaves a field alone. -/
def Deed.spares (name : Field.Name) : Deed → Bool
  | .stepped _ _ .clear => false
  | .stepped _ _ step => decide (name ∉ step.touches)
  | .finalized _ => decide (name ≠ .etag)
  | _ => true

namespace Turn

/-- If the turn takes up the reply of this identity, it leaves the field alone. -/
def Spares (id : Nat) (name : Field.Name) (turn : Turn) : Prop :=
  ∀ used ∈ turn.deed.used, used.id = id → turn.deed.spares name = true

instance
    (id : Nat)
    (name : Field.Name)
    (turn : Turn) :
    Decidable (turn.Spares id name) :=
  inferInstanceAs (Decidable (∀ _ ∈ _, _))

/-- The turn destroys the reply of this identity. -/
def Destroys (id : Nat) (turn : Turn) : Prop :=
  ∃ reply, turn.deed = .destroyed reply ∧ reply.id = id

end Turn

/-- The fields that a step of a streamed reply may change; clearing is apart. -/
def Streaming.Step.touches : Streaming.Step → List Field.Name
  | .setField name _ => (Field.Name.ofText? name).toList
  | .keepAlive _ => [.connection]
  | .frame => [.contentLength, .transferEncoding]
  | _ => []

/-! ## One step -/

variable {name : Field.Name}

/-- Setting a field leaves every other field alone. -/
theorem Message.get?_setField_of_ne
    {β : Type}
    {message changed : Message β}
    {text : String}
    {octets : Octets}
    (other : name ∉ (Field.Name.ofText? text).toList)
    (accepted : message.setField text octets = .ok changed) :
    changed.headers.get? name = message.headers.get? name := by
  unfold setField at accepted
  split at accepted
  · contradiction
  · contradiction
  · next field value named valued =>
      have notField : name ≠ field := by
        rintro rfl
        exact other (named ▸ List.mem_singleton.mpr rfl)
      rw [← Except.ok.inj accepted, Headers.get?_set, if_neg notField]

namespace Buffered

variable {η : Type} (reply : Buffered η)

/-- Rendering may name the media type, and nothing else. -/
theorem get?_render_of_ne
    (notType : name ≠ .contentType) :
    reply.render.message.headers.get? name =
      reply.message.headers.get? name := by
  rw [headers_render]
  split
  · rw [Headers.get?_set, if_neg notType]
  · rfl

/-- Putting a tag in leaves every other field alone. -/
theorem get?_withTag_of_ne
    (tag : String)
    (notTag : name ≠ .etag) :
    (reply.withTag tag).message.headers.get? name =
      reply.message.headers.get? name := by
  unfold withTag
  split
  · exact (Headers.get?_set ..).trans (if_neg notTag)
  · rfl

/-- Revalidating may touch the tag and, leaving 304, the media type and length. -/
theorem get?_revalidate_of_ne
    (notTag : name ≠ .etag)
    (notType : name ≠ .contentType)
    (notLength : name ≠ .contentLength) :
    reply.revalidate.value.message.headers.get? name =
      reply.message.headers.get? name := by
  unfold revalidate
  split
  · rfl
  · next tag _ =>
      have tagged := reply.get?_withTag_of_ne tag notTag
      split
      · simp only [asNotModified, Headers.get?_remove, if_neg notType,
          if_neg notLength, tagged]
      · exact tagged

/-- Finalizing may touch the tag, and nothing else. -/
theorem get?_finalize_of_ne
    (notTag : name ≠ .etag) :
    reply.finalize.value.1.message.headers.get? name =
      reply.message.headers.get? name := by
  have tagged :
      reply.tagged.message.headers.get? name =
        reply.message.headers.get? name := by
    unfold Buffered.tagged
    split
    · exact reply.get?_withTag_of_ne _ notTag
    · rfl
  rw [finalize_value]
  split <;> exact tagged

end Buffered

/-- A step that neither clears nor moves the reply keeps what it does not touch. -/
theorem Step.get?_apply
    (step : Step)
    (session : Session)
    (reply : Response)
    (notCleared : step ≠ .clear)
    (inPlace : ∀ slot, step ≠ .relocate slot)
    (untouched : name ∉ step.touches) :
    (step.apply session reply).reply.message.headers.get? name =
      reply.message.headers.get? name := by
  cases step with
  | setField text octets =>
      simp only [apply, Buffered.setField]
      cases accepted : reply.message.setField text octets with
      | error failure => rfl
      | ok changed => exact Message.get?_setField_of_ne untouched accepted
  | setStatus code =>
      simp only [apply, Buffered.setStatus, Message.setStatus]
      cases Status.ofCode? code <;> rfl
  | keepAlive keep =>
      exact
        Connection.get?_persist_of_ne _ keep _ (List.ne_of_not_mem_cons untouched)
  | frame =>
      simp only [touches, List.mem_cons, List.not_mem_nil, not_or] at untouched
      obtain ⟨notLength, notCoding, -⟩ := untouched
      simp only [apply]
      split <;> exact reply.message.get?_frame_of_ne notCoding notLength
  | clear => exact absurd rfl notCleared
  | relocate slot => exact absurd rfl (inPlace slot)
  | insertPayload key value =>
      simp only [apply]
      cases reply.payload.insert? key value <;> rfl
  | pushPayload value =>
      simp only [apply]
      cases reply.payload.push? value <;> rfl
  | render => exact reply.get?_render_of_ne (List.ne_of_not_mem_cons untouched)
  | revalidate =>
      simp only [touches, List.mem_cons, List.not_mem_nil, not_or] at untouched
      obtain ⟨notTag, notType, notLength, -⟩ := untouched
      exact reply.get?_revalidate_of_ne notTag notType notLength
  | releaseHandler slot => rw [apply, Session.releaseHandler_eq]
  | invokeHandler slot => rw [apply, Session.invokeHandler_eq]
  | attachHandler slot => rw [apply, Session.attachHandler_eq]
  | releaseProbe slot => rw [apply, Session.releaseProbe_eq]
  | attachProbe slot => rw [apply, Session.attachProbe_eq]
  | checkProbe slot =>
      rw [apply, Session.checkProbe_eq]
      rfl
  | _ => rfl

/-- A step that spares a field neither clears the reply nor touches the field. -/
theorem Deed.of_spares_stepped
    {session : Session}
    {reply : Response}
    {step : Step}
    (spared : (Deed.stepped session reply step).spares name = true) :
    step ≠ .clear ∧ name ∉ step.touches := by
  cases step with
  | clear => contradiction
  | _ => exact ⟨nofun, of_decide_eq_true spared⟩

/-- A deed that alters a reply and spares a field keeps that field's values. -/
theorem Deed.Alters.get?_eq
    {deed : Deed}
    {before after : Response}
    (alters : deed.Alters before after)
    (spared : deed.spares name = true) :
    after.message.headers.get? name = before.message.headers.get? name := by
  cases alters with
  | @stepped session _ step inPlace =>
      obtain ⟨notCleared, untouched⟩ := Deed.of_spares_stepped spared
      exact step.get?_apply session before notCleared inPlace untouched
  | finalized => exact before.get?_finalize_of_ne (of_decide_eq_true spared)

theorem Deed.Alters.mem_used
    {deed : Deed}
    {before after : Response}
    (alters : deed.Alters before after) :
    before ∈ deed.used := by
  cases alters <;> exact List.mem_singleton.mpr rfl

/-! ## Whole runs -/

namespace Run

variable {former later : List Turn} {machine last : Machine}

/-- A reply lives on under its identity until a turn destroys it. -/
theorem destroys_or_exists_left
    (run : Run former machine)
    (goesOn : Run (former ++ later) last) :
    ∀ reply ∈ machine.replies,
      (∃ turn ∈ later, turn.Destroys reply.id) ∨
        ∃ left ∈ last.replies, left.id = reply.id := by
  intro reply wasLiving
  induction later using List.reverseRecOn generalizing last with
  | nil =>
      rw [List.append_nil] at goesOn
      exact Or.inr ⟨reply, run.unique goesOn ▸ wasLiving, rfl⟩
  | append_singleton later turn inductionHypothesis =>
      rw [← List.append_assoc] at goesOn
      obtain ⟨prior, begun, follows, rfl⟩ := goesOn.exists_of_snoc
      have law := begun.keepsIdentities follows
      rcases inductionHypothesis begun with
        ⟨earlier, member, destroys⟩ | ⟨before, living, same⟩
      · exact Or.inl ⟨earlier, List.mem_append_left _ member, destroys⟩
      · rw [← begun.replies_before follows] at living
        rcases law.kept before living with destroyed | ⟨after, left, kept⟩
        · exact
            Or.inl
              ⟨turn, List.mem_append_right _ List.mem_cons_self, before,
                destroyed, same⟩
        · exact Or.inr ⟨after, left, kept.trans same⟩

/-- A field is as it was if every turn since spared it on this reply. -/
theorem get?_of_spares
    (run : Run former machine)
    (goesOn : Run (former ++ later) last)
    {reply : Response}
    (wasLiving : reply ∈ machine.replies)
    (spared : ∀ turn ∈ later, turn.Spares reply.id name) :
    ∀ left ∈ last.replies,
      left.id = reply.id →
        left.message.headers.get? name = reply.message.headers.get? name := by
  induction later using List.reverseRecOn generalizing last with
  | nil =>
      rw [List.append_nil] at goesOn
      obtain rfl := run.unique goesOn
      intro left living same
      rw [List.inj_on_of_nodup_map run.nodup_live_ids living wasLiving same]
  | append_singleton later turn inductionHypothesis =>
      rw [← List.append_assoc] at goesOn
      obtain ⟨prior, begun, follows, rfl⟩ := goesOn.exists_of_snoc
      have law := begun.keepsIdentities follows
      obtain ⟨sparedBefore, sparedLast⟩ := List.forall_mem_append.mp spared
      have sparesLast := List.forall_mem_singleton.mp sparedLast
      intro left living same
      rcases law.fresh left living with ⟨before, lived, named⟩ | new
      · have earlier :
            before.message.headers.get? name =
              reply.message.headers.get? name :=
          inductionHypothesis begun sparedBefore before
            (begun.replies_before follows ▸ lived) (named.trans same)
        rcases law.same before lived left living named.symm with
          rfl | alters
        · exact earlier
        · have spares :=
            sparesLast before alters.mem_used (named.trans same)
          exact (alters.get?_eq spares).trans earlier
      · -- The identity was given out before, so it is not given out again.
        have given := run.id_mem_identitiesGiven reply wasLiving
        have unused := law.unused _ new
        rw [same, identitiesGiven_append] at unused
        exact absurd (List.mem_append_left _ given) unused

end Run

/-! ## Streaming sessions -/

namespace Streaming

/-- A step of a streamed reply that does not clear it keeps what it does not touch. -/
theorem Step.get?_perform
    (step : Step)
    (session : Session)
    (notCleared : step ≠ .clear)
    (untouched : name ∉ step.touches) :
    (session.perform step).session.reply.message.headers.get? name =
      session.reply.message.headers.get? name := by
  rw [session.message_perform]
  cases step with
  | setField text octets =>
      simp only [edit]
      split
      · next accepted => exact Message.get?_setField_of_ne untouched accepted
      · rfl
  | setStatus code =>
      simp only [edit, Message.setStatus]
      cases Status.ofCode? code <;> rfl
  | keepAlive keep =>
      exact
        Connection.get?_persist_of_ne _ keep _ (List.ne_of_not_mem_cons untouched)
  | frame =>
      simp only [touches, List.mem_cons, List.not_mem_nil, not_or] at untouched
      obtain ⟨notLength, notCoding, -⟩ := untouched
      exact Message.get?_frame_of_ne _ notCoding notLength
  | clear => exact absurd rfl notCleared
  | _ => rfl

/-- The session after steps. -/
def Session.afterAll (session : Session) (steps : List Step) : Session :=
  steps.foldl (fun current step => (current.perform step).session) session

/-- Steps that neither clear the reply nor touch a field keep it. -/
theorem Session.get?_afterAll
    (session : Session)
    (steps : List Step)
    (spared : ∀ step ∈ steps, step ≠ .clear ∧ name ∉ step.touches) :
    (session.afterAll steps).reply.message.headers.get? name =
      session.reply.message.headers.get? name := by
  induction steps generalizing session with
  | nil => rfl
  | cons step rest inductionHypothesis =>
      obtain ⟨⟨notCleared, untouched⟩, restSpared⟩ :=
        List.forall_mem_cons.mp spared
      exact
        (inductionHypothesis (session.perform step).session restSpared).trans
          (step.get?_perform session notCleared untouched)

end Streaming

/-! ## The law -/

/--
Every step but clearing and relocating keeps all values of each field that it does not
touch, and finalizing those of each field but the tag.  From one boundary of a run to a
later one a reply lives on unless a turn destroys it, and has all values of each field
that every turn in between spared on it.  So it is with the steps of a streamed reply,
and with any number of them.
-/
theorem untouched_fields_kept :
    (∀ (step : Step) session reply,
      step ≠ .clear →
        (∀ slot, step ≠ .relocate slot) →
          ∀ name ∉ step.touches,
            (step.apply session reply).reply.message.headers.get? name =
              reply.message.headers.get? name) ∧
      (∀ (reply : Response) name,
        name ≠ .etag →
          reply.finalize.value.1.message.headers.get? name =
            reply.message.headers.get? name) ∧
      (∀ former later machine last,
        Run former machine →
          Run (former ++ later) last →
            ∀ reply ∈ machine.replies,
              ((∃ turn ∈ later, turn.Destroys reply.id) ∨
                ∃ left ∈ last.replies, left.id = reply.id) ∧
              ∀ left ∈ last.replies,
                left.id = reply.id →
                  ∀ name,
                    (∀ turn ∈ later, turn.Spares reply.id name) →
                      left.message.headers.get? name =
                        reply.message.headers.get? name) ∧
      (∀ (step : Streaming.Step) (session : Streaming.Session),
        step ≠ .clear →
          ∀ name ∉ step.touches,
            (session.perform step).session.reply.message.headers.get? name =
              session.reply.message.headers.get? name) ∧
      ∀ (session : Streaming.Session) steps name,
        (∀ step ∈ steps, step ≠ .clear ∧ name ∉ step.touches) →
          (session.afterAll steps).reply.message.headers.get? name =
            session.reply.message.headers.get? name := by
  refine ⟨?step, ?finalizing, ?run, ?streamedStep, ?streamedSteps⟩
  case step =>
    intro step session reply notCleared inPlace name untouched
    exact step.get?_apply session reply notCleared inPlace untouched
  case finalizing =>
    intro reply name notTag
    exact reply.get?_finalize_of_ne notTag
  case run =>
    intro former later machine last run goesOn reply wasLiving
    refine ⟨run.destroys_or_exists_left goesOn reply wasLiving, ?_⟩
    intro left living same name spared
    exact run.get?_of_spares goesOn wasLiving spared left living same
  case streamedStep =>
    intro step session notCleared name untouched
    exact step.get?_perform session notCleared untouched
  case streamedSteps =>
    intro session steps name spared
    exact session.get?_afterAll steps spared

/--
An adopted reply has two values of a field, one of them not ASCII.  It states that the
connection closes, is tagged, moved by its handler and framed: both values are there
still.  A streamed reply keeps a field while it is written to, framed and finalized.
-/
theorem untouched_fields_kept_two_values :
    (∃ former later machine last,
      Run former machine ∧
        Run (former ++ later) last ∧
        (machine.replies.map fun reply =>
            reply.message.headers.get? ⟨"accept"⟩) =
          [some [⟨[0x61]⟩, ⟨[0x80]⟩]] ∧
        (last.replies.map fun reply =>
            (reply.id, reply.message.headers.entries.map fun field =>
              field.1.text)) =
          [(1, []), (0, ["accept", "connection", "etag", "content-length"])] ∧
        ∀ reply ∈ machine.replies, ∀ left ∈ last.replies,
          left.id = reply.id →
            left.message.headers.get? ⟨"accept"⟩ =
              reply.message.headers.get? ⟨"accept"⟩) ∧
      ∃ (session : Streaming.Session) (steps : List Streaming.Step),
        steps.length = 4 ∧
          (session.afterAll steps).reply.message.headers.get? ⟨"x-a"⟩ =
            session.reply.message.headers.get? ⟨"x-a"⟩ ∧
          session.reply.message.headers.get? ⟨"x-a"⟩ = some [⟨[0x61]⟩] := by
  constructor
  · have adopted :=
      (Run.start.order rfl
        (.adopt "a"
          { status := .ok
            version := .http11
            headers := .put .empty ⟨"accept"⟩ [⟨[0x61]⟩, ⟨[0x80]⟩]
            body := "" })).work rfl
    have closing :=
      (adopted.order rfl (.act "a" (.ask (.keepAlive false)))).work rfl
    have filled :=
      (closing.order rfl (.act "a" (.ask (.setPayload (.bool true))))).work rfl
    have armed :=
      (filled.order rfl
        (.act "a"
          (.ask (.setHandler "h" [("take", .relocate "b")])))).work rfl
    have fired := (armed.order rfl (.act "a" (.ask .finalize))).work rfl
    have taken := (((fired.work rfl).work rfl).work rfl).work rfl
    have back := taken.work rfl
    have framed := (back.order rfl (.act "b" (.ask .frame))).work rfl
    change
      Run ([_, _] ++ [_, _, _, _, _, _, _, _, _, _, _, _, _, _, _]) _ at framed
    refine
      ⟨_, _, _, _, adopted, framed, by rfl, by decide +kernel, ?_⟩
    intro reply living
    have named : reply.id = 0 := by
      revert reply
      decide +kernel
    have kept := (untouched_fields_kept.2.2.1 _ _ _ _ adopted framed reply living).2
    intro left alsoLiving same
    suffices spared : ∀ turn ∈ _, Turn.Spares 0 ⟨"accept"⟩ turn from
      kept left alsoLiving same _ fun turn member used taken own =>
        spared turn member used taken (own.trans named)
    decide +kernel
  · refine
      ⟨((Streaming.Session.ofCapacity 8).perform (.setField "X-A" [0x61])).session,
        [.keepAlive false, .write [0x62], .frame, .finalize], rfl, ?_,
        by decide +kernel⟩
    refine untouched_fields_kept.2.2.2.2 _ _ _ ?_
    simp +decide [Streaming.Step.touches]

end Reply
