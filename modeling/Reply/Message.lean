import Reply.BoundedBuffer
import Reply.Connection

namespace Reply

/-!
# Messages

Status line, header section and body of one reply.  The body is text or a
bounded buffer; framing needs only its length.
-/

/-- Bodies whose length can be announced. -/
class Body (β : Type) where
  /-- The number of octets the body takes. -/
  size : β → Nat

instance : Body String :=
  ⟨String.utf8ByteSize⟩

instance : Body BoundedBuffer :=
  ⟨BoundedBuffer.length⟩

/-- One message around a body. -/
structure Message (β : Type) where
  status : Status
  version : Version
  headers : Headers
  body : β

namespace Message

variable {β : Type}

/-- The message a reply starts from: 200, HTTP/1.1, no headers. -/
def around (body : β) : Message β where
  status := .ok
  version := .http11
  headers := .empty
  body := body

/-- Set a field from an untyped name and octets; the name is judged first. -/
def setField
    (message : Message β)
    (name : String)
    (octets : Octets) :
    Except Failure (Message β) :=
  match Field.Name.ofText? name, Field.Value.ofOctets? octets with
  | none, _ => .error .invalidName
  | some _, none => .error .invalidValue
  | some field, some value =>
      .ok { message with headers := message.headers.set field value }

/-- Set the status by its code. -/
def setStatus
    (message : Message β)
    (code : Nat) :
    Except Failure (Message β) :=
  match Status.ofCode? code with
  | some status => .ok { message with status := status }
  | none => .error (.invalidStatus code)

/-- Whether the connection stays open after this message. -/
def keepsAlive (message : Message β) : Bool :=
  Connection.persists message.version message.headers

/-- State whether the connection stays open after this message. -/
def keepAlive (message : Message β) (keep : Bool) : Message β :=
  { message with
    headers := Connection.persist message.version keep message.headers }

/-- Announce the body's length, or no length where no body is allowed. -/
def frame [Body β] (message : Message β) : Message β :=
  let headers := message.headers.remove .transferEncoding
  { message with
    headers :=
      if message.status.forbidsBody then
        headers.remove .contentLength
      else
        headers.set .contentLength (.ofNat (Body.size message.body)) }

/-- Framing fails on a body where none is allowed. -/
def frameFailure? [Body β] (message : Message β) : Option Failure :=
  if message.status.forbidsBody && decide (0 < Body.size message.body) then
    some (.bodyNotAllowed message.status)
  else
    none

end Message

end Reply
