import Reply.Session.Effect

namespace Reply

/-!
# Weight

Handlers are finite, and each fires at most once.  The weight of a state adds
up what all handlers in it may still set going.  A step adds to the weight at
most what its own script line weighs.
-/

/-- The sum of a size over a list. -/
def sumOf {α : Type} (size : α → Nat) : List α → Nat
  | [] => 0
  | value :: rest => size value + sumOf size rest

/-- The order of a list does not count in a sum. -/
theorem sumOf_perm
    {α : Type}
    (size : α → Nat)
    {values others : List α}
    (perm : values.Perm others) :
    sumOf size values = sumOf size others := by
  induction perm with
  | nil => rfl
  | cons value _ inductionHypothesis =>
      simp only [sumOf, inductionHypothesis]
  | swap first second rest =>
      simp only [sumOf]
      omega
  | trans _ _ former later => exact former.trans later

namespace Registry

variable {κ α : Type}

/-- The sum of a size over all entries. -/
def total (size : α → Nat) (registry : Registry κ α) : Nat :=
  sumOf (fun entry => size entry.2) registry.entries

/-- The size of what may be there. -/
def sizeOf? (size : α → Nat) : Option α → Nat
  | some value => size value
  | none => 0

@[simp] theorem sizeOf?_none (size : α → Nat) : sizeOf? size none = 0 :=
  rfl

variable [DecidableEq κ]

/-- Putting exchanges the size of the old value for that of the new. -/
theorem total_put
    (size : α → Nat)
    (registry : Registry κ α)
    (key : κ)
    (value : α) :
    (registry.put key value).total size +
        sizeOf? size (registry.get? key) =
      registry.total size + size value := by
  rcases registry with ⟨entries, distinct⟩
  simp only [put, get?, total]
  clear distinct
  induction entries with
  | nil =>
      simp [place, find?, sumOf, sizeOf?]
  | cons entry rest inductionHypothesis =>
      rcases entry with ⟨present, held⟩
      by_cases same : present = key
      · simp only [place, find?, if_pos same, sumOf, sizeOf?]
        omega
      · simp only [place, find?, if_neg same, sumOf]
        omega

/-- Erasing gives up the size of the value. -/
theorem total_erase
    (size : α → Nat)
    (registry : Registry κ α)
    (key : κ) :
    (registry.erase key).total size +
        sizeOf? size (registry.get? key) =
      registry.total size := by
  have parts :=
    sumOf_perm (fun entry => size entry.2) (withdraw_perm key registry.entries)
  simp only [total, erase, get?, ← parts]
  cases found : find? key registry.entries with
  | none => rfl
  | some value =>
      simp only [Option.map_some, Option.toList_some, List.singleton_append,
        sumOf, sizeOf?]
      exact Nat.add_comm ..

/-- Accepting what there may be adds at most its size. -/
theorem total_accept_le
    (size : α → Nat)
    (registry : Registry κ α)
    (key : κ)
    (value? : Option α) :
    (registry.accept key value?).total size ≤
      registry.total size + sizeOf? size value? := by
  cases value? with
  | none => exact Nat.le_refl _
  | some value =>
      have exchanged := registry.total_put size key value
      simp only [accept, sizeOf?]
      omega

omit [DecidableEq κ] in
/-- Of two values that there may be, one is there at most. -/
theorem sizeOf?_or_le
    (size : α → Nat)
    (value? former? : Option α) :
    sizeOf? size (value?.or former?) ≤
      sizeOf? size value? + sizeOf? size former? := by
  cases value? with
  | none => exact Nat.le_add_left ..
  | some value => exact Nat.le_add_right ..

end Registry

/-- The script, and two for firing and finishing. -/
def Handler.weight (handler : Handler) : Nat :=
  2 + scriptWeight handler.script

/-- What the attached handler weighs. -/
def Buffered.weight (reply : Response) : Nat :=
  Registry.sizeOf? Handler.weight reply.handler

/-- A guard adds finalizing the reply and letting it go. -/
def Holding.weight (holding : Holding) : Nat :=
  holding.reply.weight + if holding.guarded then 2 else 0

/-- What all slots and released handlers weigh. -/
def Session.weight (session : Session) : Nat :=
  session.slots.total Holding.weight +
    session.handlers.total Handler.weight

/-- What a sequel adds to the work at hand. -/
def Sequel.weight : Sequel → Nat
  | .nothing => 0
  | .finalize => 1
  | .fire handler => 1 + scriptWeight handler.script
  | .store _ reply => 1 + reply.weight

/-- Firing adds less than the handler weighs that there may be. -/
theorem Sequel.weight_firing_le (handler? : Option Handler) :
    (firing handler?).weight ≤ Registry.sizeOf? Handler.weight handler? := by
  cases handler? with
  | none => exact Nat.le_refl _
  | some handler =>
      simp only [firing, weight, Registry.sizeOf?, Handler.weight]
      omega

/-- A reply weighs what its handler does, whatever else changes. -/
theorem Buffered.weight_congr
    {reply other : Response}
    (same : reply.handler = other.handler) :
    reply.weight = other.weight := by
  simp [Buffered.weight, same]

theorem Buffered.handler_of_setField
    {reply changed : Response}
    {name : String}
    {octets : Octets}
    (accepted : reply.setField name octets = .ok changed) :
    changed.handler = reply.handler := by
  unfold Buffered.setField at accepted
  cases outcome : reply.message.setField name octets with
  | error failure =>
      simp [outcome, bind, Except.bind] at accepted
  | ok message =>
      simp [outcome, bind, Except.bind, pure, Except.pure] at accepted
      rw [← accepted]

theorem Buffered.handler_of_setStatus
    {reply changed : Response}
    {code : Nat}
    (accepted : reply.setStatus code = .ok changed) :
    changed.handler = reply.handler := by
  unfold Buffered.setStatus at accepted
  cases outcome : reply.message.setStatus code with
  | error failure =>
      simp [outcome, bind, Except.bind] at accepted
  | ok message =>
      simp [outcome, bind, Except.bind, pure, Except.pure] at accepted
      rw [← accepted]

@[simp] theorem Buffered.handler_render (reply : Response) :
    reply.render.handler = reply.handler := by
  simp only [Buffered.render]
  split <;> rfl

@[simp] theorem Buffered.handler_withTag
    (reply : Response)
    (tag : String) :
    (reply.withTag tag).handler = reply.handler := by
  simp only [Buffered.withTag]
  split <;> rfl

@[simp] theorem Buffered.handler_tagged (reply : Response) :
    reply.tagged.handler = reply.handler := by
  simp only [Buffered.tagged]
  split
  · exact Buffered.handler_withTag ..
  · rfl

@[simp] theorem Buffered.handler_revalidate (reply : Response) :
    reply.revalidate.value.handler = reply.handler := by
  simp only [Buffered.revalidate]
  split
  · rfl
  · split
    · exact Buffered.handler_withTag ..
    · exact Buffered.handler_withTag ..

namespace Effect

/-- What an effect leaves and calls for. -/
def weight (effect : Effect) : Nat :=
  effect.reply.weight + effect.session.weight + effect.sequel.weight

/-- An attempt weighs what the reply weighs if success keeps the handler. -/
theorem weight_attempting
    {session : Session}
    {reply : Response}
    {outcome : Except Failure Response}
    (keeps : ∀ changed, outcome = .ok changed → changed.handler = reply.handler) :
    (attempting session reply outcome).weight =
      reply.weight + session.weight := by
  cases outcome with
  | error failure => rfl
  | ok changed =>
      have same := Buffered.weight_congr (keeps changed rfl)
      simp [attempting, changing, weight, Sequel.weight, same]

/-- Editing the content leaves the weight alone. -/
theorem weight_editing
    (session : Session)
    (reply : Response)
    (edited : Option Payload) :
    (editing session reply edited).weight =
      reply.weight + session.weight := by
  cases edited <;> rfl

end Effect

/-- A step brings in at most two less than its own weight. -/
theorem Step.weight_apply_le
    (session : Session)
    (reply : Response)
    (step : Step) :
    (step.apply session reply).weight + 2 ≤
      reply.weight + session.weight + step.weight := by
  have least := step.three_le_weight
  have quiet :
      reply.weight + session.weight + 2 ≤
        reply.weight + session.weight + step.weight :=
    Nat.add_le_add_left (Nat.le_of_succ_le least) _
  cases step with
  | setField name octets =>
      have same :
          (Effect.attempting session reply (reply.setField name octets)).weight =
            reply.weight + session.weight :=
        Effect.weight_attempting fun _ => Buffered.handler_of_setField
      rwa [Step.apply, same]
  | setStatus code =>
      have same :
          (Effect.attempting session reply (reply.setStatus code)).weight =
            reply.weight + session.weight :=
        Effect.weight_attempting fun _ => Buffered.handler_of_setStatus
      rwa [Step.apply, same]
  | frame =>
      simp only [Step.apply]
      split
      · exact quiet
      · exact quiet
  | render =>
      have same := Buffered.weight_congr reply.handler_render
      simp only [Step.apply, Effect.changing, Effect.weight, Sequel.weight, same]
      exact quiet
  | revalidate =>
      have same := Buffered.weight_congr reply.handler_revalidate
      simp only [Step.apply, Effect.noting, Effect.weight, Sequel.weight, same]
      exact quiet
  | insertPayload key value =>
      rwa [Step.apply, Effect.weight_editing]
  | pushPayload value =>
      rwa [Step.apply, Effect.weight_editing]
  | finalize => exact Nat.add_le_add_left least (reply.weight + session.weight)
  | setHandler name script =>
      simp only [Step.apply, Session.setHandler, Effect.noting, Effect.weight,
        Buffered.attach, Buffered.weight, Registry.sizeOf?, Handler.weight,
        Session.weight, Sequel.weight, Step.weight]
      omega
  | releaseHandler name =>
      have exchanged :=
        session.handlers.total_accept_le Handler.weight name reply.handler
      simp only [Step.apply, Session.releaseHandler_eq, Effect.weight,
        Buffered.weight, Registry.sizeOf?_none, Session.weight, Sequel.weight]
      omega
  | invokeHandler name =>
      have taken := session.handlers.total_erase Handler.weight name
      have fired := Sequel.weight_firing_le (session.handlers.get? name)
      simp only [Step.apply, Session.invokeHandler_eq, Effect.weight,
        Session.weight]
      omega
  | attachHandler name =>
      have taken := session.handlers.total_erase Handler.weight name
      have replaced :=
        Registry.sizeOf?_or_le Handler.weight (session.handlers.get? name)
          reply.handler
      simp only [Step.apply, Session.attachHandler_eq, Effect.weight,
        Buffered.weight, Session.weight, Sequel.weight]
      omega
  | releaseProbe name =>
      rw [Step.apply, Session.releaseProbe_eq]
      exact quiet
  | attachProbe name =>
      rw [Step.apply, Session.attachProbe_eq]
      exact quiet
  | checkProbe name =>
      rw [Step.apply, Session.checkProbe_eq]
      exact quiet
  | relocate slot =>
      have lighter :
          (reply.relocate session.nextId).value.1.weight ≤ reply.weight := by
        cases finished : reply.completed with
        | true => simp [Buffered.relocate, Buffered.weight, finished, Registry.sizeOf?]
        | false => simp [Buffered.relocate, Buffered.weight, finished]
      have empty :
          (reply.relocate session.nextId).value.2.weight = 0 :=
        rfl
      simp only [Step.apply, Session.relocate, Effect.weight, Sequel.weight, empty,
        Session.weight, Step.weight]
      omega
  | readField | readStatus | setVersion | append | setBody | keepAlive
  | readKeepAlive | clear | setPayload | readTag | expect | readCompleted
  | readAlive | setProbe | setFlag | unsupported =>
      exact quiet

end Reply
