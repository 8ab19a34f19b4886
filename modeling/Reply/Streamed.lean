import Reply.Message
import Reply.Note

namespace Reply

/-!
# Streamed replies

A reply whose body is a bounded buffer that the transport reads from while it
is written.  Such a reply never moves, carries no structured content and has no
entity tag.
-/

/-- A reply with a bounded body. -/
structure Streamed (η : Type) where
  id : Nat
  message : Message BoundedBuffer
  completed : Bool
  handler : Option η
  probe : Option Probe

namespace Streamed

variable {η : Type}

/-- A new reply with an empty body of a capacity. -/
def ofCapacity (id capacity : Nat) : Streamed η where
  id := id
  message := .around (.ofCapacity capacity)
  completed := false
  handler := none
  probe := none

/-- The body. -/
def body (reply : Streamed η) : BoundedBuffer :=
  reply.message.body

/-- Replace the body. -/
def setBody (reply : Streamed η) (body : BoundedBuffer) : Streamed η :=
  { reply with message := { reply.message with body := body } }

/-- Set a field from an untyped name and octets. -/
def setField
    (reply : Streamed η)
    (name : String)
    (octets : Octets) :
    Except Failure (Streamed η) := do
  let message ← reply.message.setField name octets
  pure { reply with message := message }

/-- Set the status by its code. -/
def setStatus
    (reply : Streamed η)
    (code : Nat) :
    Except Failure (Streamed η) := do
  let message ← reply.message.setStatus code
  pure { reply with message := message }

/-- Set the protocol version. -/
def setVersion (reply : Streamed η) (version : Version) : Streamed η :=
  { reply with message := { reply.message with version := version } }

/-- State whether the connection stays open after this reply. -/
def keepAlive (reply : Streamed η) (keep : Bool) : Streamed η :=
  { reply with message := reply.message.keepAlive keep }

/-- Announce the body's length. -/
def frame (reply : Streamed η) : Streamed η :=
  { reply with message := reply.message.frame }

/-- Append to the body if the octets fit; a refusal leaves it as it was. -/
def write
    (reply : Streamed η)
    (octets : Octets) :
    Noted (Except Failure (Streamed η)) :=
  match reply.body.write octets with
  | .ok body => .silent (.ok (reply.setBody body))
  | .error failure =>
      ⟨.error failure,
        [.logged .debug "Streaming write rejected", .counted .overflow]⟩

/-- Reset status, version, headers and body; handler and probe stay. -/
def clear (reply : Streamed η) : Noted (Streamed η) where
  value :=
    { reply with
      message :=
        { status := .ok
          version := .http11
          headers := .empty
          body := reply.body.clear }
      completed := false }
  notes := [.logged .debug "Clearing response containers"]

/--
Finish the reply and hand back the handler that is now due.

On a completed reply nothing is due and nothing changes.
-/
def finalize (reply : Streamed η) : Noted (Streamed η × Option η) :=
  if reply.completed then
    ⟨(reply, none),
      [.logged .debug "Streaming response was finalized twice",
        .counted (.finalizedTwice .streaming)]⟩
  else
    ⟨({ reply with completed := true, handler := none }, reply.handler),
      [.counted (.finalized .streaming reply.message.status.code),
        .logged .debug "Calling completion handler"] ++
      (if reply.handler.isSome then
        [.logged .debug "Completion handler was valid"]
      else
        [])⟩

/-- Attach a handler for the next completion, which is pending again. -/
def attach (reply : Streamed η) (handler : η) : Noted (Streamed η) where
  value := { reply with handler := some handler, completed := false }
  notes := [.logged .debug "Setting completion handler"]

/-- Detach the handler; the reply counts as completed. -/
def detach (reply : Streamed η) : Noted (Streamed η × Option η) where
  value := ({ reply with completed := true, handler := none }, reply.handler)
  notes := []

end Streamed

end Reply
