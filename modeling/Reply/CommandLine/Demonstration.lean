import Reply.Buffered

namespace Reply

/-!
# The demonstration

One reply goes through all that a reply goes through: a producer fills it and
moves it on, a guarded stage answers the conditional request and lets it go,
finalizing fires its handler, and the handler moves it to the transport, which
renders, frames and writes it.
-/

namespace Demonstration

/-- The handler of the reply: it moves the reply to the transport. -/
inductive Courier
  | courier

/-- Take over the reply that the handler fires on. -/
def Courier.carry (finished : Buffered Courier) : Courier → Buffered Courier
  | .courier => (finished.relocate 2).value.1

/-- The flag that the owner of the connection keeps for it. -/
def connection : String :=
  "connection"

/-- The reply to be filled: it has its handler and watches the connection. -/
def pending : Buffered Courier :=
  let watching : Buffered Courier :=
    { Buffered.blank 0 with probe := some ⟨0, connection⟩ }
  (watching.attach .courier).value

/-- The content that is served. -/
def content : Payload :=
  .ofEntries
    [("Name", .text "Demo Resource"),
      ("Status",
        .ofEntries [("State", .text "Enabled"), ("Health", .text "OK")]),
      ("Members",
        .array
          [.whole ⟨1, by decide, by decide⟩,
            .whole ⟨2, by decide, by decide⟩,
            .whole ⟨3, by decide, by decide⟩])]

/-- Why nothing is written. -/
inductive Fault
  | failed (failure : Failure)
  | undelivered
  deriving DecidableEq

/-- The wording of a fault. -/
def Fault.message : Fault → String
  | .failed failure => failure.message
  | .undelivered => "the reply was never handed over"

/--
The producer's stage: set status and content, and move the reply on.

Nothing is made for a connection that is gone.
-/
def produce
    (flags : Flags)
    (code : Nat) :
    Except Failure (Option (Buffered Courier)) :=
  if Probe.isAlive flags pending.probe then do
    let produced ← pending.setStatus code
    pure (some ((produced.setPayload content).relocate 1).value.1)
  else
    pure none

/-- The guarded stage: what the handler takes over once the guard lets go. -/
def conclude
    (reply : Buffered Courier)
    (held : Option String) :
    Option (Buffered Courier) :=
  let asked :=
    match held with
    | some tag => reply.expect tag
    | none => reply
  let outcome := asked.revalidate.value.finalize.value
  outcome.2.map (Courier.carry outcome.1)

/-- The transport: render and frame the reply. -/
def transport (reply : Buffered Courier) : Except Failure (Message String) :=
  let rendered := reply.render.message
  match rendered.frameFailure? with
  | some failure => .error failure
  | none => .ok rendered.frame

/-- The message that a status code and a held tag lead to. -/
def serve (code : Nat) (held : Option String) : Except Fault (Message String) :=
  match produce .empty code with
  | .error failure => .error (.failed failure)
  | .ok produced =>
      match produced.bind fun reply => conclude reply held with
      | none => .error .undelivered
      | some finished => (transport finished).mapError Fault.failed

/-- One line of the header section. -/
def fieldLine (name : Field.Name) (value : Field.Value) : String :=
  name.text ++ ": " ++ value.text?.getD "<binary>" ++ "\n"

/-- A message as it is shown. -/
def display (message : Message String) : String :=
  message.version.text ++ " " ++ toString message.status.code ++ " " ++
    message.status.reason ++ "\n" ++
    String.join
      (message.headers.entries.flatMap fun entry =>
        entry.2.map fun value => fieldLine entry.1 value) ++
    "\n" ++
    (if message.body.isEmpty then "" else message.body ++ "\n")

end Demonstration

end Reply
