import Reply.Proofs.Session.Finalizing
import Reply.Proofs.Session.Generations
import Reply.Proofs.Session.Onlooking

namespace Reply

/-!
# Twins

A buffered reply without content and a streamed reply are twins if what can be seen
of them is the same and their handlers and probes are the same ones.  Each thing
that both can be asked leaves twins behind, with the same answer, as long as the
streamed body has room.
-/

/-! ## What both offer -/

/-- A script that a handler of either variant can carry out: it leaves the reply alone. -/
def Common (script : Script) : Prop :=
  ∀ line ∈ script, line.2.looksOn = true

instance (script : Script) : Decidable (Common script) :=
  inferInstanceAs (Decidable (∀ line ∈ script, line.2.looksOn = true))

/-- The handler of a streamed reply that does what a buffered reply's does. -/
def Handler.streamed (handler : Handler) : Streaming.Handler where
  serial := handler.serial
  name := handler.name
  signals := signals handler.script

/-- One thing that replies of both variants can be asked. -/
inductive Operation
  | setField (name : String) (octets : Octets)
  | readField (name : String)
  | setStatus (code : Nat)
  | readStatus
  | setVersion (version : Version)
  | append (text : String)
  | keepAlive (keep : Bool)
  | readKeepAlive
  | frame
  | clear
  | finalize
  | readCompleted
  | readAlive
  | setHandler (name : String) (script : Script) (common : Common script)
  | releaseHandler (name : String)
  | invokeHandler (name : String)
  | attachHandler (name : String)
  | setProbe (flag : String)
  | setFlag (flag : String) (up : Bool)
  | releaseProbe (name : String)
  | attachProbe (name : String)

namespace Operation

/-- The step of a buffered reply. -/
def buffered : Operation → Step
  | .setField name octets => .setField name octets
  | .readField name => .readField name
  | .setStatus code => .setStatus code
  | .readStatus => .readStatus
  | .setVersion version => .setVersion version
  | .append text => .append text
  | .keepAlive keep => .keepAlive keep
  | .readKeepAlive => .readKeepAlive
  | .frame => .frame
  | .clear => .clear
  | .finalize => .finalize
  | .readCompleted => .readCompleted
  | .readAlive => .readAlive
  | .setHandler name script _ => .setHandler name script
  | .releaseHandler name => .releaseHandler name
  | .invokeHandler name => .invokeHandler name
  | .attachHandler name => .attachHandler name
  | .setProbe flag => .setProbe flag
  | .setFlag flag up => .setFlag flag up
  | .releaseProbe name => .releaseProbe name
  | .attachProbe name => .attachProbe name

/-- The step of a streamed reply; what the other appends is written here. -/
def streamed : Operation → Streaming.Step
  | .setField name octets => .setField name octets
  | .readField name => .readField name
  | .setStatus code => .setStatus code
  | .readStatus => .readStatus
  | .setVersion version => .setVersion version
  | .append text => .write (utf8 text)
  | .keepAlive keep => .keepAlive keep
  | .readKeepAlive => .readKeepAlive
  | .frame => .frame
  | .clear => .clear
  | .finalize => .finalize
  | .readCompleted => .readCompleted
  | .readAlive => .readAlive
  | .setHandler name script _ => .setHandler name (signals script)
  | .releaseHandler name => .releaseHandler name
  | .invokeHandler name => .invokeHandler name
  | .attachHandler name => .attachHandler name
  | .setProbe flag => .setProbe flag
  | .setFlag flag up => .setFlag flag up
  | .releaseProbe name => .releaseProbe name
  | .attachProbe name => .attachProbe name

/-- The same answer, but that a write says how many octets it took. -/
def SameAnswer : Operation → Answer → Answer → Prop
  | .append text, appended, written =>
      appended = .done ∧ written = .count (utf8 text).length
  | _, appended, written => appended = written

end Operation

/-! ## What can be seen -/

/-- What can be seen of a reply of either variant. -/
structure View where
  status : Status
  reason : String
  version : Version
  headers : Headers
  keepsAlive : Bool
  body : Octets
  completed : Bool
  alive : Bool

/-- What can be seen of a buffered reply. -/
def Buffered.view (reply : Response) (flags : Flags) : View where
  status := reply.message.status
  reason := reply.message.status.reason
  version := reply.message.version
  headers := reply.message.headers
  keepsAlive := reply.message.keepsAlive
  body := utf8 reply.message.body
  completed := reply.completed
  alive := Probe.isAlive flags reply.probe

/-- What can be seen of a streamed reply. -/
def Streamed.view
    (reply : Streamed Streaming.Handler)
    (flags : Flags) :
    View where
  status := reply.message.status
  reason := reply.message.status.reason
  version := reply.message.version
  headers := reply.message.headers
  keepsAlive := reply.message.keepsAlive
  body := reply.message.body.contents
  completed := reply.completed
  alive := Probe.isAlive flags reply.probe

/-- The handler that fires here, if one does. -/
def Event.fired? : Event → Option (Nat × String)
  | .fired serial name _ _ => some (serial, name)
  | _ => none

/-- The handler that fires here, if one does. -/
def Streaming.Event.fired? : Streaming.Event → Option (Nat × String)
  | .fired serial name => some (serial, name)
  | _ => none

/-! ## Messages that match -/

theorem utf8_append (first second : String) :
    utf8 (first ++ second) = utf8 first ++ utf8 second := by
  simp [utf8]

namespace Message

/-- A buffered and a streamed message that say the same. -/
structure Matches
    (buffered : Message String)
    (streamed : Message BoundedBuffer) : Prop where
  status : streamed.status = buffered.status
  version : streamed.version = buffered.version
  headers : streamed.headers = buffered.headers
  body : streamed.body.contents = utf8 buffered.body

namespace Matches

variable
    {buffered : Message String}
    {streamed : Message BoundedBuffer}

theorem keepsAlive (same : buffered.Matches streamed) :
    streamed.keepsAlive = buffered.keepsAlive := by
  rw [Message.keepsAlive, Message.keepsAlive, same.version, same.headers]

theorem size (same : buffered.Matches streamed) :
    Body.size streamed.body = Body.size buffered.body :=
  congrArg List.length same.body

theorem frameFailure? (same : buffered.Matches streamed) :
    streamed.frameFailure? = buffered.frameFailure? := by
  rw [Message.frameFailure?, Message.frameFailure?, same.status, same.size]

theorem frame (same : buffered.Matches streamed) :
    buffered.frame.Matches streamed.frame := by
  refine ⟨same.status, same.version, ?_, same.body⟩
  simp only [Message.frame, same.status, same.headers, same.size]

theorem keepAlive (same : buffered.Matches streamed) (keep : Bool) :
    (buffered.keepAlive keep).Matches (streamed.keepAlive keep) := by
  refine ⟨same.status, same.version, ?_, same.body⟩
  simp only [Message.keepAlive, same.version, same.headers]

end Matches

end Message

/-! ## Twins -/

/-- A buffered reply in hand and a streaming session that cannot be told apart. -/
structure Twins
    (session : Session)
    (reply : Response)
    (streaming : Streaming.Session) : Prop where
  message : reply.message.Matches streaming.reply.message
  payload : reply.payload = .null
  completed : streaming.reply.completed = reply.completed
  handler : streaming.reply.handler = reply.handler.map Handler.streamed
  probe : streaming.reply.probe = reply.probe
  handlers : streaming.handlers = session.handlers.map Handler.streamed
  probes : streaming.probes = session.probes
  flags : streaming.flags = session.flags
  nextSerial : streaming.nextSerial = session.nextSerial
  attached : ∀ handler ∈ reply.handler, Common handler.script
  released : ∀ handler ∈ session.handlers.contents, Common handler.script

namespace Twins

variable
    {session : Session}
    {reply : Response}
    {streaming : Streaming.Session}

theorem view (twins : Twins session reply streaming) :
    reply.view session.flags = streaming.reply.view streaming.flags := by
  simp only [Buffered.view, Streamed.view, twins.message.status,
    twins.message.version, twins.message.headers, twins.message.keepsAlive,
    twins.message.body, twins.completed, twins.probe, twins.flags]

/-- A reply without content has no tag. -/
theorem tagged (twins : Twins session reply streaming) :
    reply.tagged = reply := by
  apply Buffered.tagged_of_none
  rw [Buffered.tag?, twins.payload]
  exact ite_self none

/-- What only the message tells apart leaves twins if the messages still match. -/
theorem withMessage
    (twins : Twins session reply streaming)
    {buffered : Message String}
    {streamed : Message BoundedBuffer}
    (same : buffered.Matches streamed) :
    Twins session { reply with message := buffered }
      { streaming with
        reply := { streaming.reply with message := streamed } } :=
  { twins with message := same }

end Twins

/-- One thing asked of twins that sets nothing further going. -/
structure Parallel
    (operation : Operation)
    (effect : Effect)
    (outcome : Streaming.Outcome) : Prop where
  twins : Twins effect.session effect.reply outcome.session
  answer : operation.SameAnswer effect.answer outcome.answer
  sequel : effect.sequel = .nothing
  uncounted : counters (effect.notes.map Event.noted) = []
  uncountedThere : Streaming.counters outcome.trace = []
  unfired : outcome.trace.filterMap Streaming.Event.fired? = []

/-- Whether what is asked may fire a handler. -/
def Operation.mayFire : Operation → Bool
  | .finalize => true
  | .invokeHandler _ => true
  | _ => false

/-- Whether an answer says that a capacity was exceeded. -/
def Answer.isOverflow : Answer → Bool
  | .failed (.overflow _ _) => true
  | _ => false

namespace Twins

variable
    {session : Session}
    {reply : Response}
    {streaming : Streaming.Session}

theorem setField
    (twins : Twins session reply streaming)
    (name : String)
    (octets : Octets) :
    Parallel (.setField name octets)
      ((Step.setField name octets).apply session reply)
      (streaming.perform (.setField name octets)) := by
  simp only [Step.apply, Streaming.Session.perform, Buffered.setField,
    Streamed.setField, Message.setField]
  cases Field.Name.ofText? name with
  | none => exact ⟨twins, rfl, rfl, rfl, rfl, rfl⟩
  | some field =>
      cases Field.Value.ofOctets? octets with
      | none => exact ⟨twins, rfl, rfl, rfl, rfl, rfl⟩
      | some value =>
          have same :
              streaming.reply.message.headers.set field value =
                reply.message.headers.set field value := by
            rw [twins.message.headers]
          exact
            ⟨twins.withMessage
                ⟨twins.message.status, twins.message.version, same,
                  twins.message.body⟩,
              rfl, rfl, rfl, rfl, rfl⟩

theorem setStatus
    (twins : Twins session reply streaming)
    (code : Nat) :
    Parallel (.setStatus code)
      ((Step.setStatus code).apply session reply)
      (streaming.perform (.setStatus code)) := by
  simp only [Step.apply, Streaming.Session.perform, Buffered.setStatus,
    Streamed.setStatus, Message.setStatus]
  cases Status.ofCode? code with
  | none => exact ⟨twins, rfl, rfl, rfl, rfl, rfl⟩
  | some status =>
      exact
        ⟨twins.withMessage
            ⟨rfl, twins.message.version, twins.message.headers,
              twins.message.body⟩,
          rfl, rfl, rfl, rfl, rfl⟩

/-- What is appended to the one is written to the other. -/
theorem append
    (twins : Twins session reply streaming)
    {text : String}
    (fits :
      (streaming.perform (.write (utf8 text))).answer.isOverflow = false) :
    Parallel (.append text)
      ((Step.append text).apply session reply)
      (streaming.perform (.write (utf8 text))) := by
  simp only [Streaming.Session.perform, Streamed.write] at fits ⊢
  by_cases room : (utf8 text).length ≤ streaming.reply.body.remaining
  · rw [BoundedBuffer.write_of_le room]
    refine
      ⟨twins.withMessage
          ⟨twins.message.status, twins.message.version,
            twins.message.headers, ?_⟩,
        ⟨rfl, rfl⟩, rfl, rfl, rfl, rfl⟩
    simp only [utf8_append, ← twins.message.body]
    rfl
  · rw [BoundedBuffer.write_of_lt (Nat.lt_of_not_le room)] at fits
    contradiction

theorem frame (twins : Twins session reply streaming) :
    Parallel .frame (Step.frame.apply session reply)
      (streaming.perform .frame) := by
  have left := twins.withMessage twins.message.frame
  simp only [Step.apply, Streaming.Session.perform,
    twins.message.frameFailure?]
  cases reply.message.frameFailure? with
  | none => exact ⟨left, rfl, rfl, rfl, rfl, rfl⟩
  | some failure => exact ⟨left, rfl, rfl, rfl, rfl, rfl⟩

theorem clear (twins : Twins session reply streaming) :
    Parallel .clear (Step.clear.apply session reply)
      (streaming.perform .clear) :=
  have left :
      Twins session reply.clear.value
        { streaming with reply := streaming.reply.clear.value } :=
    { twins with
      message := ⟨rfl, rfl, rfl, rfl⟩
      payload := rfl
      completed := rfl }
  ⟨left, rfl, rfl, rfl, rfl, rfl⟩

theorem setHandler
    (twins : Twins session reply streaming)
    (name : String)
    {script : Script}
    (common : Common script) :
    Parallel (.setHandler name script common)
      ((Step.setHandler name script).apply session reply)
      (streaming.perform (.setHandler name (signals script))) := by
  have made :
      some (⟨streaming.nextSerial, name, signals script⟩ :
          Streaming.Handler) =
        (some (⟨session.nextSerial, name, script⟩ : Handler)).map
          Handler.streamed := by
    rw [twins.nextSerial]
    rfl
  have numbered :
      streaming.nextSerial + 1 = session.nextSerial + 1 :=
    congrArg (· + 1) twins.nextSerial
  refine
    ⟨{ twins with
        completed := rfl
        handler := made
        nextSerial := numbered
        attached := ?_ },
      rfl, rfl, rfl, rfl, rfl⟩
  intro handler member
  exact Option.some.inj member ▸ common

theorem releaseHandler
    (twins : Twins session reply streaming)
    (name : String) :
    Parallel (.releaseHandler name)
      ((Step.releaseHandler name).apply session reply)
      (streaming.perform (.releaseHandler name)) := by
  simp only [Step.apply, Session.releaseHandler, Buffered.detach,
    Streaming.Session.perform, Streaming.Session.releaseHandler,
    Streamed.detach, twins.handler]
  cases attached : reply.handler with
  | none =>
      exact
        ⟨{ twins with
            completed := rfl
            handler := rfl
            attached := by simp },
          rfl, rfl, rfl, rfl, rfl⟩
  | some handler =>
      have stored :
          streaming.handlers.put name handler.streamed =
            (session.handlers.put name handler).map Handler.streamed := by
        rw [twins.handlers, Registry.map_put]
      refine
        ⟨{ twins with
            completed := rfl
            handler := rfl
            handlers := stored
            attached := by simp
            released := ?_ },
          rfl, rfl, rfl, rfl, rfl⟩
      intro other member
      rcases Registry.mem_contents_put member with rfl | kept
      · exact twins.attached other attached
      · exact twins.released other kept

/-- A released handler that is found under a name is common to both. -/
theorem found
    (twins : Twins session reply streaming)
    {name : String}
    {handler : Handler}
    (present : session.handlers.get? name = some handler) :
    Common handler.script :=
  twins.released handler (Registry.mem_contents_of_get? present)

/-- Taking a released handler out leaves the other released ones common. -/
theorem taken
    (twins : Twins session reply streaming)
    (name : String) :
    streaming.handlers.erase name =
        (session.handlers.erase name).map Handler.streamed ∧
      ∀ handler ∈ (session.handlers.erase name).contents,
        Common handler.script := by
  constructor
  · rw [twins.handlers, Registry.map_erase]
  · intro handler member
    exact
      twins.released handler
        (Registry.contents_erase_subset session.handlers name member)

theorem attachHandler
    (twins : Twins session reply streaming)
    (name : String) :
    Parallel (.attachHandler name)
      ((Step.attachHandler name).apply session reply)
      (streaming.perform (.attachHandler name)) := by
  simp only [Step.apply, Session.attachHandler, Streaming.Session.perform,
    Streaming.Session.attachHandler, twins.handlers, Registry.get?_map]
  cases present : session.handlers.get? name with
  | none => exact ⟨twins, rfl, rfl, rfl, rfl, rfl⟩
  | some handler =>
      obtain ⟨handlers, released⟩ := twins.taken name
      rw [twins.handlers] at handlers
      refine
        ⟨{ twins with
            completed := rfl
            handler := rfl
            handlers := handlers
            attached := ?_
            released := released },
          rfl, rfl, rfl, rfl, rfl⟩
      intro other member
      exact Option.some.inj member ▸ twins.found present

theorem setProbe
    (twins : Twins session reply streaming)
    (flag : String) :
    Parallel (.setProbe flag)
      ((Step.setProbe flag).apply session reply)
      (streaming.perform (.setProbe flag)) := by
  have made :
      some (⟨streaming.nextSerial, flag⟩ : Probe) =
        some ⟨session.nextSerial, flag⟩ := by
    rw [twins.nextSerial]
  have numbered :
      streaming.nextSerial + 1 = session.nextSerial + 1 :=
    congrArg (· + 1) twins.nextSerial
  exact
    ⟨{ twins with
        probe := made
        nextSerial := numbered },
      rfl, rfl, rfl, rfl, rfl⟩

theorem releaseProbe
    (twins : Twins session reply streaming)
    (name : String) :
    Parallel (.releaseProbe name)
      ((Step.releaseProbe name).apply session reply)
      (streaming.perform (.releaseProbe name)) := by
  have stored :
      streaming.probes.accept name streaming.reply.probe =
        session.probes.accept name reply.probe := by
    rw [twins.probes, twins.probe]
  have answered :
      Answer.probe reply.probe.isSome =
        .probe streaming.reply.probe.isSome := by
    rw [twins.probe]
  rw [Step.apply, Session.releaseProbe_eq, Streaming.Session.perform,
    Streaming.Session.releaseProbe_eq]
  exact
    ⟨{ twins with
        probe := rfl
        probes := stored },
      answered, rfl, rfl, rfl, rfl⟩

theorem attachProbe
    (twins : Twins session reply streaming)
    (name : String) :
    Parallel (.attachProbe name)
      ((Step.attachProbe name).apply session reply)
      (streaming.perform (.attachProbe name)) := by
  rw [Step.apply, Session.attachProbe_eq, Streaming.Session.perform,
    Streaming.Session.attachProbe_eq, twins.probes]
  have attached :
      (session.probes.get? name).or streaming.reply.probe =
        (session.probes.get? name).or reply.probe := by
    rw [twins.probe]
  exact
    ⟨{ twins with
        probe := attached
        probes := rfl },
      rfl, rfl, rfl, rfl, rfl⟩

theorem setFlag
    (twins : Twins session reply streaming)
    (flag : String)
    (up : Bool) :
    Parallel (.setFlag flag up)
      ((Step.setFlag flag up).apply session reply)
      (streaming.perform (.setFlag flag up)) := by
  have raised :
      streaming.flags.put flag up = session.flags.put flag up := by
    rw [twins.flags]
  exact
    ⟨{ twins with flags := raised }, rfl, rfl, rfl, rfl, rfl⟩

/-- Whatever is asked of twins that fires no handler leaves twins. -/
theorem parallel
    (twins : Twins session reply streaming)
    {operation : Operation}
    (quiet : operation.mayFire = false)
    (fits :
      (streaming.perform operation.streamed).answer.isOverflow = false) :
    Parallel operation (operation.buffered.apply session reply)
      (streaming.perform operation.streamed) := by
  have reading :
      ∀ {first second : Answer},
        operation.SameAnswer first second →
          Parallel operation (.answering session reply first)
            (streaming.answering second) :=
    fun same => ⟨twins, same, rfl, rfl, rfl, rfl⟩
  cases operation with
  | setField name octets => exact twins.setField name octets
  | setStatus code => exact twins.setStatus code
  | setVersion version =>
      exact
        ⟨twins.withMessage
            ⟨twins.message.status, rfl, twins.message.headers,
              twins.message.body⟩,
          rfl, rfl, rfl, rfl, rfl⟩
  | append text => exact twins.append fits
  | keepAlive keep =>
      exact
        ⟨twins.withMessage (twins.message.keepAlive keep),
          rfl, rfl, rfl, rfl, rfl⟩
  | frame => exact twins.frame
  | clear => exact twins.clear
  | setHandler name script common => exact twins.setHandler name common
  | releaseHandler name => exact twins.releaseHandler name
  | attachHandler name => exact twins.attachHandler name
  | setProbe flag => exact twins.setProbe flag
  | setFlag flag up => exact twins.setFlag flag up
  | releaseProbe name => exact twins.releaseProbe name
  | attachProbe name => exact twins.attachProbe name
  | readField name =>
      apply reading
      rw [twins.message.headers]
      rfl
  | readStatus =>
      apply reading
      rw [twins.message.status]
      rfl
  | readKeepAlive =>
      apply reading
      rw [twins.message.keepsAlive]
      rfl
  | readCompleted =>
      apply reading
      rw [twins.completed]
      rfl
  | readAlive =>
      apply reading
      rw [twins.flags, twins.probe]
      rfl
  | finalize => contradiction
  | invokeHandler name => contradiction

/-! ### Firing -/

/-- Twins stay twins whatever slots are beside the buffered one. -/
theorem withSlots
    (twins : Twins session reply streaming)
    (slots : Registry String Holding) :
    Twins { session with slots := slots } reply streaming :=
  { twins with }

/-- The flags that a common handler sets are the ones its image sets. -/
theorem fire
    (twins : Twins session reply streaming)
    (handler : Handler)
    (before : List Note) :
    Twins (session.signalled (signals handler.script)) reply
      (streaming.fire handler.streamed before).session :=
  { twins with flags := congrArg (Flags.signalled · _) twins.flags }

/-- Completing both leaves them without a handler. -/
theorem complete (twins : Twins session reply streaming) :
    Twins session { reply with completed := true, handler := none }
      { streaming with
        reply :=
          { streaming.reply with completed := true, handler := none } } :=
  { twins with
    completed := rfl
    handler := rfl
    attached := by simp }

end Twins

/-- Finalizing twins leaves twins and fires the same handler, if it does. -/
theorem Twins.finalize
    {session : Session}
    {reply : Response}
    {streaming : Streaming.Session}
    (twins : Twins session reply streaming) :
    Twins
        (session.signalled
          (reply.finalize.value.2.toList.flatMap fun handler =>
            signals handler.script))
        reply.finalize.value.1 streaming.finalize.session ∧
      streaming.finalize.answer = .done ∧
      streaming.finalize.trace.filterMap Streaming.Event.fired? =
        reply.finalize.value.2.toList.map fun handler =>
          (handler.serial, handler.name) := by
  rw [Buffered.finalize_value, twins.tagged]
  simp only [Streaming.Session.finalize, Streamed.finalize, twins.completed,
    twins.handler]
  cases reply.completed with
  | true => exact ⟨twins, rfl, rfl⟩
  | false =>
      cases attached : reply.handler with
      | none => exact ⟨twins.complete, rfl, rfl⟩
      | some handler =>
          simp only [Bool.false_eq_true, if_false, Option.map_some,
            Option.toList_some, List.flatMap_singleton]
          exact
            ⟨twins.complete.fire handler _,
              rfl, rfl⟩

end Reply
