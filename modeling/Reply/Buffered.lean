import Reply.Message
import Reply.Note
import Reply.Payload.Json
import Reply.Payload.Encoding

namespace Reply

/-!
# Buffered replies

A reply whose body is text held in memory, with structured content beside it.
The content is authoritative: the body is rendered from it only when the reply
is handed off, and the entity tag is the content's.  A reply may carry a
completion handler, which finalizing detaches and hands back to be fired, and a
liveness probe.  What a handler is stays open here.
-/

/-- A reply with a text body. -/
structure Buffered (η : Type) where
  id : Nat
  message : Message String
  payload : Payload
  completed : Bool
  expected : Option String
  handler : Option η
  probe : Option Probe

namespace Buffered

variable {η : Type}

/-- A new reply around a message. -/
def ofMessage (id : Nat) (message : Message String) : Buffered η where
  id := id
  message := message
  payload := .null
  completed := false
  expected := none
  handler := none
  probe := none

/-- A new reply with nothing in it. -/
def blank (id : Nat) : Buffered η :=
  ofMessage id (.around "")

/-- Set a field from an untyped name and octets. -/
def setField
    (reply : Buffered η)
    (name : String)
    (octets : Octets) :
    Except Failure (Buffered η) := do
  let message ← reply.message.setField name octets
  pure { reply with message := message }

/-- Set the status by its code. -/
def setStatus
    (reply : Buffered η)
    (code : Nat) :
    Except Failure (Buffered η) := do
  let message ← reply.message.setStatus code
  pure { reply with message := message }

/-- Set the protocol version. -/
def setVersion (reply : Buffered η) (version : Version) : Buffered η :=
  { reply with message := { reply.message with version := version } }

/-- Replace the body. -/
def setBody (reply : Buffered η) (text : String) : Buffered η :=
  { reply with message := { reply.message with body := text } }

/-- Append to the body. -/
def append (reply : Buffered η) (text : String) : Buffered η :=
  reply.setBody (reply.message.body ++ text)

/-- State whether the connection stays open after this reply. -/
def keepAlive (reply : Buffered η) (keep : Bool) : Buffered η :=
  { reply with message := reply.message.keepAlive keep }

/-- Announce the body's length. -/
def frame (reply : Buffered η) : Buffered η :=
  { reply with message := reply.message.frame }

/-- Make the reply usable for other content; handler and probe stay. -/
def clear (reply : Buffered η) : Noted (Buffered η) where
  value :=
    { reply with
      message := .around ""
      payload := .null
      completed := false
      expected := none }
  notes := [.logged .debug "Clearing response containers"]

/-! ## Content -/

/-- Replace the content. -/
def setPayload (reply : Buffered η) (payload : Payload) : Buffered η :=
  { reply with payload := payload }

/-- Whether rendering would change anything. -/
def wantsRendering (reply : Buffered η) : Bool :=
  reply.message.body.isEmpty &&
    !reply.payload.isEmpty &&
    !reply.message.status.forbidsBody

/-- Name the media type JSON unless one is named already. -/
def withJsonType (headers : Headers) : Headers :=
  if headers.contains .contentType then
    headers
  else
    headers.set .contentType .applicationJson

/-- Write the content into an empty body, where a body is allowed. -/
def render (reply : Buffered η) : Buffered η :=
  if reply.wantsRendering then
    { reply with
      message :=
        { reply.message with
          body := reply.payload.toJson
          headers := withJsonType reply.message.headers } }
  else
    reply

/-! ## Conditional replies -/

/-- The content's tag, which only a 200 reply with content has. -/
def tag? (reply : Buffered η) : Option String :=
  if reply.message.status = .ok then reply.payload.tag? else none

/-- Store the tag that the client holds. -/
def expect (reply : Buffered η) (tag : String) : Buffered η :=
  { reply with expected := some tag }

/-- Put a tag into the header section. -/
def withTag (reply : Buffered η) (tag : String) : Buffered η :=
  match Field.Value.ofText? tag with
  | some value =>
      { reply with
        message :=
          { reply.message with
            headers := reply.message.headers.set .etag value } }
  | none => reply

/-- Drop content and body, leaving 304. -/
def asNotModified (reply : Buffered η) : Buffered η :=
  { reply with
    payload := .null
    message :=
      { reply.message with
        status := .notModified
        headers :=
          (reply.message.headers.remove .contentType).remove .contentLength
        body := "" } }

/-- Attach the tag, and answer 304 if it is the one the client holds. -/
def revalidate (reply : Buffered η) : Noted (Buffered η) :=
  match reply.tag? with
  | none => .silent reply
  | some tag =>
      if reply.expected = some tag then
        ⟨(reply.withTag tag).asNotModified,
          [.logged .debug "Payload not modified", .counted .notModified]⟩
      else
        .silent (reply.withTag tag)

/-! ## Completion -/

/-- Attach the tag, if there is one. -/
def tagged (reply : Buffered η) : Buffered η :=
  match reply.tag? with
  | some tag => reply.withTag tag
  | none => reply

/--
Finish the reply and hand back the handler that is now due.

On a completed reply nothing is due, and only the tag is refreshed.
-/
def finalize (reply : Buffered η) : Noted (Buffered η × Option η) :=
  let reply := reply.tagged
  if reply.completed then
    ⟨(reply, none),
      [.logged .error "Response was finalized twice",
        .counted (.finalizedTwice .buffered)]⟩
  else
    ⟨({ reply with completed := true, handler := none }, reply.handler),
      [.counted (.finalized .buffered reply.message.status.code),
        .logged .debug "Calling completion handler"] ++
      (if reply.handler.isSome then
        [.logged .debug "Completion handler was valid"]
      else
        [])⟩

/-- Attach a handler for the next completion, which is pending again. -/
def attach (reply : Buffered η) (handler : η) : Noted (Buffered η) where
  value := { reply with handler := some handler, completed := false }
  notes := [.logged .debug "Setting completion handler"]

/-- Detach the handler; the reply counts as completed. -/
def detach (reply : Buffered η) : Noted (Buffered η × Option η) where
  value := ({ reply with completed := true, handler := none }, reply.handler)
  notes := [.logged .debug "Releasing completion handler"]

/-! ## Relocation and hand-off -/

/--
Move everything out, leaving a blank reply with a fresh identity.

The first result is the moved reply, the second what stays behind.  A completed
reply moves without its handler.
-/
def relocate
    (reply : Buffered η)
    (fresh : Nat) :
    Noted (Buffered η × Buffered η) where
  value :=
    ({ reply with
        handler := if reply.completed then none else reply.handler },
      blank fresh)
  notes := [.logged .debug "Moving response containers"]

/--
The message handed to the transport: rendered and framed.

A body that is not allowed is discarded.
-/
def deliver (reply : Buffered η) : Noted (Message String) :=
  let rendered := reply.render.message
  let framed := rendered.frame
  match rendered.frameFailure? with
  | none => .silent framed
  | some _ =>
      ⟨{ framed with
          body := ""
          headers := framed.headers.remove .contentLength },
        [.logged .warn "Discarding body"]⟩

end Buffered

end Reply
