import Reply.Proofs.Delivery
import Reply.Proofs.Legality
import Reply.Proofs.Session.Generations
import Reply.Proofs.Session.StreamedMessage

namespace Reply

/-!
# Attempts

Setting a field, setting the status, framing and writing to a bounded body may fail.
Each fails for stated reasons and for no other, and a failure leaves everything as it
was, except that framing has by then removed the two fields it is about.
-/

/-! ## Names and values that are accepted -/

namespace Field

/-- A text that names a field in some letter case. -/
structure IsName (text : String) : Prop where
  nonempty : 1 ≤ text.length
  length_le : text.length ≤ 65535
  tokens : ∀ char ∈ text.toList, isTokenChar char = true

/-- The texts that are read as names are those that name a field. -/
theorem isToken_iff_isName {text : String} :
    isToken text.toList = true ↔ IsName text := by
  simp only [isToken, Bool.and_eq_true, Bool.not_eq_true',
    List.isEmpty_eq_false_iff, decide_eq_true_eq, List.all_eq_true,
    String.length_toList, ne_eq, ← List.length_pos_iff]
  constructor
  · rintro ⟨⟨nonempty, within⟩, tokens⟩
    exact ⟨nonempty, within, tokens⟩
  · intro named
    exact ⟨⟨named.nonempty, named.length_le⟩, named.tokens⟩

instance (text : String) : Decidable (IsName text) :=
  decidable_of_iff _ isToken_iff_isName

/-- A name is kept in lower case. -/
theorem Name.ofText?_eq
    (text : String) :
    ofText? text = if IsName text then some ⟨text.toLower⟩ else none := by
  simp only [ofText?, isToken_iff_isName]

/-- A value is accepted if it is legal. -/
theorem Value.ofOctets?_eq
    (octets : Octets) :
    ofOctets? octets =
      if Value.Legal ⟨octets⟩ then some ⟨octets⟩ else none := by
  simp only [ofOctets?, legal_iff]

/-- A character in lower case is a token character only if it was one. -/
theorem isTokenChar_of_toLower
    {char : Char}
    (token : isTokenChar char.toLower = true) :
    isTokenChar char = true := by
  by_cases capital : char.isUpper = true
  · simp only [isTokenChar, Char.isAlphanum, Char.isAlpha, capital,
      Bool.true_or]
  · rwa [Char.toLower_eq_of_not_isUpper capital] at token

/-- A name is one in every letter case. -/
theorem IsName.of_toLower_eq
    {text other : String}
    (named : IsName text)
    (same : other.toLower = text.toLower) :
    IsName other := by
  have lowered :
      other.toList.map Char.toLower = text.toList.map Char.toLower := by
    have lists := congrArg String.toList same
    rwa [String.toLower, String.toLower, String.toList_map,
      String.toList_map] at lists
  have length : other.length = text.length := by
    have lengths := congrArg List.length lowered
    rwa [List.length_map, List.length_map, String.length_toList,
      String.length_toList] at lengths
  refine ⟨length ▸ named.nonempty, length ▸ named.length_le, ?_⟩
  intro char member
  have lower : char.toLower ∈ text.toList.map Char.toLower :=
    lowered ▸ List.mem_map_of_mem member
  obtain ⟨origin, inText, back⟩ := List.mem_map.mp lower
  apply isTokenChar_of_toLower
  rw [← back]
  exact (isTokenChar_toLower (named.tokens origin inText)).1

end Field

/-! ## Setting and framing -/

namespace Headers

/-- The fields that tell how a body is framed. -/
def framing : List Field.Name :=
  [.transferEncoding, .contentLength]

/-- A single value is read in every letter case of its field's name. -/
theorem text?_of_single
    {headers : Headers}
    {name spelling : String}
    {octets : Octets}
    (named : Field.IsName name)
    (single : headers.get? ⟨name.toLower⟩ = some [⟨octets⟩])
    (same : spelling.toLower = name.toLower) :
    headers.text? spelling = octets.visibleText? := by
  have read : Field.Name.ofText? spelling = some ⟨name.toLower⟩ := by
    rw [Field.Name.ofText?_eq, if_pos (named.of_toLower_eq same), same]
  simp only [text?, read, Option.bind_eq_bind, Option.bind_some, values,
    single, Option.getD_some, List.head?_cons, Field.Value.text?]

end Headers

namespace Message

variable {β : Type}

/-- The field has the value alone, and it can be read back if it is readable. -/
structure HasField
    (before after : Message β)
    (name : String)
    (octets : Octets) : Prop where
  single : after.headers.get? ⟨name.toLower⟩ = some [⟨octets⟩]
  others :
    ∀ other : Field.Name, other ≠ ⟨name.toLower⟩ →
      after.headers.get? other = before.headers.get? other
  rest : after = { before with headers := after.headers }
  readable :
    octets.all Octet.isVisible = true →
      ∃ text, utf8 text = octets ∧
        ∀ spelling : String, spelling.toLower = name.toLower →
          after.headers.text? spelling = some text

/-- Setting a field judges the name, then the value. -/
theorem setField_eq
    (message : Message β)
    (name : String)
    (octets : Octets) :
    message.setField name octets =
      if Field.IsName name then
        if Field.Value.Legal ⟨octets⟩ then
          .ok
            { message with
              headers := message.headers.set ⟨name.toLower⟩ ⟨octets⟩ }
        else
          .error .invalidValue
      else
        .error .invalidName := by
  rw [Message.setField, Field.Name.ofText?_eq, Field.Value.ofOctets?_eq]
  split_ifs
  all_goals rfl

/-- A field that is set has its value alone and is read back. -/
theorem hasField_set
    (message : Message β)
    {name : String}
    (octets : Octets)
    (named : Field.IsName name) :
    message.HasField
      { message with headers := message.headers.set ⟨name.toLower⟩ ⟨octets⟩ }
      name octets where
  single := by rw [Headers.get?_set, if_pos rfl]
  others other different := by rw [Headers.get?_set, if_neg different]
  rest := rfl
  readable visible := by
    have read : octets.visibleText? = some _ := if_pos visible
    refine ⟨_, utf8_of_visibleText? read, ?_⟩
    intro spelling same
    rw [Headers.text?_of_single named (by rw [Headers.get?_set, if_pos rfl])
      same, read]

variable [Body β]

/-- The length is announced where a body is allowed, and no coding is. -/
structure Framed (before after : Message β) : Prop where
  uncoded : after.headers.get? .transferEncoding = none
  announced :
    after.headers.get? .contentLength =
      if before.status.Bodiless then
        none
      else
        some [.ofNat (Body.size before.body)]
  others : after.headers.AgreeBeside Headers.framing before.headers
  rest : after = { before with headers := after.headers }

/-- Framing announces the body or leaves it unannounced, and does no more. -/
theorem framed_frame (message : Message β) : message.Framed message.frame := by
  have coding : .transferEncoding ∈ Headers.framing := List.mem_cons_self
  have length : .contentLength ∈ Headers.framing := by decide
  have apart : Field.Name.transferEncoding ≠ .contentLength := by decide
  rw [frame_eq]
  by_cases bodiless : message.status.Bodiless
  · simp only [if_pos bodiless]
    constructor
    · rw [Headers.get?_remove, if_neg apart, Headers.get?_remove, if_pos rfl]
    · rw [Headers.get?_remove, if_pos rfl, if_pos bodiless]
    · exact ((Headers.agreeBeside_refl _).remove coding).remove length
    · rfl
  · simp only [if_neg bodiless]
    constructor
    · rw [Headers.get?_set, if_neg apart, Headers.get?_remove, if_pos rfl]
    · rw [Headers.get?_set, if_pos rfl, if_neg bodiless]
    · exact ((Headers.agreeBeside_refl _).remove coding).set length _
    · rfl

end Message

/-! ## Reasons and results -/

/-- Something tried on a message that may fail. -/
inductive Attempt
  | setField (name : String) (octets : Octets)
  | setStatus (code : Nat)
  | frame

namespace Message

variable {β : Type} [Body β]

/-- Why an attempt on a message fails; a value is judged after the name. -/
inductive Refuses (message : Message β) : Attempt → Failure → Prop
  | name {name : String} {octets : Octets} :
      ¬Field.IsName name →
        message.Refuses (.setField name octets) .invalidName
  | value {name : String} {octets : Octets} :
      Field.IsName name → ¬Field.Value.Legal ⟨octets⟩ →
        message.Refuses (.setField name octets) .invalidValue
  | status {code : Nat} :
      ¬(100 ≤ code ∧ code ≤ 999) →
        message.Refuses (.setStatus code) (.invalidStatus code)
  | body :
      message.status.Bodiless → 0 < Body.size message.body →
        message.Refuses .frame (.bodyNotAllowed message.status)

/-- There is one reason at most. -/
theorem Refuses.unique
    {message : Message β}
    {attempt : Attempt}
    {failure other : Failure}
    (refuses : message.Refuses attempt failure)
    (again : message.Refuses attempt other) :
    failure = other := by
  cases refuses with
  | name unnamed =>
      cases again with
      | name => rfl
      | value named => exact absurd named unnamed
  | value named =>
      cases again with
      | name unnamed => exact absurd named unnamed
      | value => rfl
  | status => cases again; rfl
  | body => cases again; rfl

/--
What an attempt that fails leaves: the message as it was, but that framing has removed
its two fields by then.
-/
def AfterRefusal (before after : Message β) : Attempt → Prop
  | .frame =>
      after.headers.get? .transferEncoding = none ∧
        after.headers.get? .contentLength = none ∧
        after.headers.AgreeBeside Headers.framing before.headers ∧
        after = { before with headers := after.headers }
  | _ => after = before

/-- What an attempt has brought about when it succeeds. -/
def Achieves (before after : Message β) : Attempt → Prop
  | .setField name octets => before.HasField after name octets
  | .setStatus code =>
      ∃ status : Status, status.code = code ∧
        after = { before with status := status }
  | .frame => before.Framed after

end Message

namespace Attempt

variable {β : Type} [Body β]

/--
An attempt takes one message to another and is answered: with its failure if and
only if there is a reason for it.
-/
structure ComesTo
    (attempt : Attempt)
    (before after : Message β)
    (answer : Answer) : Prop where
  failed_iff :
    ∀ failure, answer = .failed failure ↔ before.Refuses attempt failure
  done_iff : answer = .done ↔ ∀ failure, ¬before.Refuses attempt failure
  refused :
    ∀ failure, answer = .failed failure → before.AfterRefusal after attempt
  achieved : answer = .done → before.Achieves after attempt

variable {attempt : Attempt} {before after : Message β}

/-- A refused attempt leaves what refusals leave. -/
theorem ComesTo.of_refuses
    {failure : Failure}
    (refuses : before.Refuses attempt failure)
    (left : before.AfterRefusal after attempt) :
    attempt.ComesTo before after (.failed failure) where
  failed_iff other := by
    constructor
    · intro same
      exact Answer.failed.inj same ▸ refuses
    · intro again
      exact congrArg Answer.failed (refuses.unique again)
  done_iff := by
    constructor
    · intro done
      contradiction
    · intro free
      exact absurd refuses (free failure)
  refused _ _ := left
  achieved done := by contradiction

/-- An attempt that nothing speaks against achieves what it is for. -/
theorem ComesTo.of_free
    (free : ∀ failure, ¬before.Refuses attempt failure)
    (achieved : before.Achieves after attempt) :
    attempt.ComesTo before after .done where
  failed_iff failure := by
    constructor
    · intro failed
      contradiction
    · intro refuses
      exact absurd refuses (free failure)
  done_iff := ⟨fun _ => free, fun _ => rfl⟩
  refused failure failed := by contradiction
  achieved _ := achieved

/-! ## One attempt on a message -/

/-- The message after an operation that changes it or fails, and the answer. -/
def settle (message : Message β) :
    Except Failure (Message β) → Message β × Answer
  | .ok changed => (changed, .done)
  | .error failure => (message, .failed failure)

/-- The message after an attempt, and the answer. -/
def run (message : Message β) : Attempt → Message β × Answer
  | .setField name octets => settle message (message.setField name octets)
  | .setStatus code => settle message (message.setStatus code)
  | .frame =>
      (message.frame,
        match message.frameFailure? with
        | some failure => .failed failure
        | none => .done)

/-- Setting a field fails for what is wrong with the name or the value. -/
theorem comesTo_setField
    (message : Message β)
    (name : String)
    (octets : Octets) :
    (setField name octets).ComesTo message
      (run message (.setField name octets)).1
      (run message (.setField name octets)).2 := by
  simp only [run, Message.setField_eq]
  split_ifs with named legal
  · apply ComesTo.of_free
    · intro failure refuses
      cases refuses with
      | name unnamed => exact unnamed named
      | value _ illegal => exact illegal legal
    · exact message.hasField_set octets named
  · exact .of_refuses (.value named legal) rfl
  · exact .of_refuses (.name named) rfl

/-- Setting the status fails for a code that has not three digits. -/
theorem comesTo_setStatus
    (message : Message β)
    (code : Nat) :
    (setStatus code).ComesTo message
      (run message (.setStatus code)).1
      (run message (.setStatus code)).2 := by
  simp only [run, Message.setStatus]
  by_cases within : 100 ≤ code ∧ code ≤ 999
  · rw [Status.ofCode?, dif_pos within]
    apply ComesTo.of_free
    · intro failure refuses
      cases refuses with
      | status outside => exact outside within
    · exact ⟨_, rfl, rfl⟩
  · rw [Status.ofCode?, dif_neg within]
    exact .of_refuses (.status within) rfl

/-- Framing fails for a body under a status that allows none. -/
theorem comesTo_frame (message : Message β) :
    frame.ComesTo message (run message .frame).1 (run message .frame).2 := by
  by_cases refused :
      message.status.Bodiless ∧ 0 < Body.size message.body
  · obtain ⟨bodiless, filled⟩ := refused
    have failure :
        message.frameFailure? = some (.bodyNotAllowed message.status) := by
      rw [Message.frameFailure?, Status.forbidsBody_iff.mpr bodiless,
        decide_eq_true filled]
      rfl
    have framed := message.framed_frame
    have unannounced := framed.announced.trans (if_pos bodiless)
    simp only [run, failure]
    exact
      .of_refuses (.body bodiless filled)
        ⟨framed.uncoded, unannounced, framed.others, framed.rest⟩
  · have failure : message.frameFailure? = none := by
      rw [Message.frameFailure?, if_neg]
      rw [Bool.and_eq_true, Status.forbidsBody_iff, decide_eq_true_eq]
      exact refused
    simp only [run, failure]
    apply ComesTo.of_free
    · intro failure refuses
      cases refuses with
      | body bodiless filled => exact refused ⟨bodiless, filled⟩
    · exact message.framed_frame

/-- What an attempt comes to depends on the message alone. -/
theorem comesTo_run
    (message : Message β)
    (attempt : Attempt) :
    attempt.ComesTo message (run message attempt).1 (run message attempt).2 := by
  cases attempt with
  | setField name octets => exact comesTo_setField message name octets
  | setStatus code => exact comesTo_setStatus message code
  | frame => exact comesTo_frame message

/-- Except for framing, a failed attempt leaves the message as it was. -/
theorem run_of_failed
    {message : Message β}
    {attempt : Attempt}
    {failure : Failure}
    (other : attempt ≠ .frame)
    (failed : (run message attempt).2 = .failed failure) :
    (run message attempt).1 = message := by
  have left := (comesTo_run message attempt).refused failure failed
  cases attempt with
  | setField name octets => exact left
  | setStatus code => exact left
  | frame => contradiction

/-! ## Attempts on either variant -/

/-- The attempt as a step on a buffered reply. -/
def buffered : Attempt → Step
  | .setField name octets => .setField name octets
  | .setStatus code => .setStatus code
  | .frame => .frame

/-- The attempt as a step on a streamed reply. -/
def streamed : Attempt → Streaming.Step
  | .setField name octets => .setField name octets
  | .setStatus code => .setStatus code
  | .frame => .frame

/-- On a buffered reply an attempt is one on its message. -/
theorem apply_buffered
    (session : Session)
    (reply : Response)
    (attempt : Attempt) :
    attempt.buffered.apply session reply =
      ⟨session, { reply with message := (run reply.message attempt).1 },
        (run reply.message attempt).2, [], .nothing⟩ := by
  cases attempt with
  | setField name octets =>
      simp only [buffered, Step.apply, Buffered.setField, run]
      cases reply.message.setField name octets with
      | error failure => rfl
      | ok message => rfl
  | setStatus code =>
      simp only [buffered, Step.apply, Buffered.setStatus, run]
      cases reply.message.setStatus code with
      | error failure => rfl
      | ok message => rfl
  | frame =>
      simp only [buffered, Step.apply, run]
      cases reply.message.frameFailure? with
      | none => rfl
      | some failure => rfl

/-- On a streamed reply an attempt is one on its message. -/
theorem perform_streamed
    (session : Streaming.Session)
    (attempt : Attempt) :
    session.perform attempt.streamed =
      ⟨{ session with
          reply :=
            { session.reply with
              message := (run session.reply.message attempt).1 } },
        (run session.reply.message attempt).2, []⟩ := by
  cases attempt with
  | setField name octets =>
      simp only [streamed, Streaming.Session.perform, Streamed.setField, run]
      cases session.reply.message.setField name octets with
      | error failure => rfl
      | ok message => rfl
  | setStatus code =>
      simp only [streamed, Streaming.Session.perform, Streamed.setStatus, run]
      cases session.reply.message.setStatus code with
      | error failure => rfl
      | ok message => rfl
  | frame =>
      simp only [streamed, Streaming.Session.perform, run]
      cases session.reply.message.frameFailure? with
      | none => rfl
      | some failure => rfl

end Attempt

/-! ## Writes -/

namespace Streaming

/--
What comes of a write: it fails if and only if it exceeds the room, and then nothing
is taken in and nothing else changes.
-/
structure Outcome.OfWrite
    (outcome : Outcome)
    (session : Session)
    (octets : Octets) : Prop where
  failed_iff :
    ∀ failure,
      outcome.answer = .failed failure ↔
        session.reply.body.remaining < octets.length ∧
          failure = .overflow octets.length session.reply.body.remaining
  taken :
    octets.length ≤ session.reply.body.remaining →
      outcome.answer = .count octets.length
  refused :
    session.reply.body.remaining < octets.length → outcome.session = session

namespace Session

variable {session : Session} {octets : Octets}

/-- A write that exceeds the room changes nothing; through the reply it is counted. -/
theorem perform_write_of_lt
    (exceeds : session.reply.body.remaining < octets.length) :
    (session.perform (.write octets)).session = session ∧
      (session.perform (.writeBody octets)).session = session ∧
      counters (session.perform (.write octets)).trace = [.overflow] ∧
      firings (session.perform (.write octets)).trace = [] ∧
      (session.perform (.writeBody octets)).trace = [] := by
  simp only [perform, writing, Streamed.write, Noted.silent,
    BoundedBuffer.write_of_lt exceeds, Except.map, true_and]
  exact ⟨rfl, rfl, rfl⟩

/-- Both ways of writing come to the same. -/
theorem ofWrite_perform
    {step : Step}
    (writes : step.use? = some (.write octets)) :
    (session.perform step).OfWrite session octets := by
  have answered := (session.perform_write writes).2
  by_cases fits : octets.length ≤ session.reply.body.remaining
  · rw [if_pos fits] at answered
    have within := Nat.not_lt.mpr fits
    constructor
    · intro failure
      rw [answered]
      constructor
      · intro failed
        contradiction
      · intro exceeds
        exact absurd exceeds.1 within
    · exact fun _ => answered
    · exact fun exceeds => absurd exceeds within
  · rw [if_neg fits] at answered
    have exceeds := Nat.lt_of_not_le fits
    constructor
    · intro failure
      rw [answered, Answer.failed.injEq]
      constructor
      · intro same
        exact ⟨exceeds, same.symm⟩
      · intro both
        exact both.2.symm
    · exact fun within => absurd within fits
    · intro _
      rcases Step.eq_of_use?_write writes with rfl | rfl
      · exact (perform_write_of_lt exceeds).1
      · exact (perform_write_of_lt exceeds).2.1

end Session

end Streaming

/--
On a buffered reply and on a streamed one, whatever its state and that of its session,
an attempt comes to the same and touches nothing but the message.  A failed attempt to
set a field or the status leaves the reply as it was; framing that fails has removed the
two fields about framing.  A write fails if and only if it exceeds the room, and then
everything stays as it was; only writing through the reply counts the overflow.
-/
theorem attempts_fail_exactly :
    (∀ (session : Session) (reply : Response) (attempt : Attempt),
      let effect := attempt.buffered.apply session reply
      attempt.ComesTo reply.message effect.reply.message effect.answer ∧
        effect.reply = { reply with message := effect.reply.message } ∧
        effect.session = session ∧
        effect.notes = [] ∧
        effect.sequel = .nothing ∧
        ∀ failure, attempt ≠ .frame → effect.answer = .failed failure →
          effect.reply = reply) ∧
      (∀ (session : Streaming.Session) (attempt : Attempt),
        let outcome := session.perform attempt.streamed
        let message := outcome.session.reply.message
        attempt.ComesTo session.reply.message message outcome.answer ∧
          outcome.session =
            { session with reply := { session.reply with message := message } } ∧
          outcome.trace = [] ∧
          ∀ failure, attempt ≠ .frame → outcome.answer = .failed failure →
            outcome.session = session) ∧
      ∀ (session : Streaming.Session) (octets : Octets),
        let written := session.perform (.write octets)
        let lent := session.perform (.writeBody octets)
        written.OfWrite session octets ∧
          lent.OfWrite session octets ∧
          (session.reply.body.remaining < octets.length →
            Streaming.counters written.trace = [.overflow] ∧
              Streaming.firings written.trace = [] ∧
              lent.trace = []) := by
  refine ⟨?_, ?_, ?_⟩
  · intro session reply attempt
    simp only [Attempt.apply_buffered]
    refine ⟨Attempt.comesTo_run reply.message attempt, trivial, trivial, trivial,
      trivial, ?_⟩
    intro failure other failed
    rw [Attempt.run_of_failed other failed]
  · intro session attempt
    simp only [Attempt.perform_streamed]
    refine ⟨Attempt.comesTo_run session.reply.message attempt, trivial, trivial, ?_⟩
    intro failure other failed
    rw [Attempt.run_of_failed other failed]
  · intro session octets
    refine ⟨Streaming.Session.ofWrite_perform rfl,
      Streaming.Session.ofWrite_perform rfl, ?_⟩
    intro exceeds
    exact (Streaming.Session.perform_write_of_lt exceeds).2.2

/--
A name with a blank is reported before a value with a line break; a field is read
back in another letter case; 1000 is no status; a 304 reply with a body keeps all
fields but the two about framing; three octets do not fit into two.
-/
theorem attempts_fail_exactly_one_each :
    let headers : Headers :=
      ⟨[(.transferEncoding, [⟨utf8 "chunked"⟩]), (.etag, [⟨utf8 "x"⟩]),
          (.contentLength, [⟨utf8 "7"⟩]), (⟨"x-a"⟩, [⟨utf8 "1"⟩, ⟨utf8 "2"⟩])],
        by decide⟩
    let reply : Response := .ofMessage 0 ⟨.notModified, .http11, headers, "body"⟩
    let after (attempt : Attempt) := attempt.buffered.apply .initial reply
    let session : Streaming.Session := .ofCapacity 2
    (after (.setField "X Tag" [10])).answer = .failed .invalidName ∧
      (after (.setField "X-Tag" [10])).answer = .failed .invalidValue ∧
      (after (.setField "X-Tag" [10])).reply = reply ∧
      (after (.setField "X-Tag" (utf8 "on"))).reply.message.headers.text?
          "x-TAG" =
        some "on" ∧
      (after (.setStatus 1000)).answer = .failed (.invalidStatus 1000) ∧
      (after .frame).answer = .failed (.bodyNotAllowed .notModified) ∧
      (after .frame).reply.message.headers.get? .transferEncoding = none ∧
      (after .frame).reply.message.headers.get? .contentLength = none ∧
      (after .frame).reply.message.headers.get? .etag = some [⟨utf8 "x"⟩] ∧
      (after .frame).reply.message.headers.get? ⟨"x-a"⟩ =
        some [⟨utf8 "1"⟩, ⟨utf8 "2"⟩] ∧
      (session.perform (.write [1, 2, 3])).answer = .failed (.overflow 3 2) ∧
      (session.perform (.write [1, 2, 3])).session = session := by
  intro headers reply after session
  obtain ⟨buffered, -, writes⟩ := attempts_fail_exactly
  have named : Field.IsName "X-Tag" := by decide +kernel
  have sameName : "x-TAG".toLower = "X-Tag".toLower := by
    rw [← String.toList_inj, String.toLower, String.toLower,
      String.toList_map, String.toList_map]
    decide +kernel
  have badName := buffered .initial reply (.setField "X Tag" [10])
  have badValue := buffered .initial reply (.setField "X-Tag" [10])
  have good := buffered .initial reply (.setField "X-Tag" (utf8 "on"))
  have badStatus := buffered .initial reply (.setStatus 1000)
  have badFrame := buffered .initial reply .frame
  have tooMuch := (writes session [1, 2, 3]).1
  have valueRefused :=
    (badValue.1.failed_iff .invalidValue).mpr (.value named (by decide))
  have frameRefused :=
    (badFrame.1.failed_iff (.bodyNotAllowed .notModified)).mpr
      (.body (by decide) (by decide))
  obtain ⟨uncoded, unannounced, others, -⟩ := badFrame.1.refused _ frameRefused
  refine
    ⟨?_, valueRefused, ?_, ?_, ?_, frameRefused, uncoded, unannounced,
      others .etag (by decide), others ⟨"x-a"⟩ (by decide), ?_, ?_⟩
  · exact (badName.1.failed_iff .invalidName).mpr (.name (by decide +kernel))
  · exact badValue.2.2.2.2.2 _ nofun valueRefused
  · have accepted :=
      good.1.done_iff.mpr fun failure refuses => by
        cases refuses with
        | name unnamed => exact unnamed named
        | value _ illegal => exact illegal (by decide)
    obtain ⟨text, same, read⟩ :=
      (good.1.achieved accepted).readable (by decide +kernel)
    have back := read "x-TAG" sameName
    rw [utf8_injective same] at back
    exact back
  · exact (badStatus.1.failed_iff (.invalidStatus 1000)).mpr (.status (by decide))
  · exact (tooMuch.failed_iff _).mpr ⟨by decide, rfl⟩
  · exact tooMuch.refused (by decide)

end Reply
