import Reply.Buffered
import Reply.Session.Step

namespace Reply

/-!
# Session state

A session holds replies in named slots, each plain or guarded: a guarded reply
is finalized when its slot lets it go.  Beside the slots it holds handlers and
probes that were released from replies, and the flags that probes watch.
Replies, handlers and probes get their numbers from counters, so no number is
given twice.
-/

/-- A completion handler: what it is called and what it does. -/
structure Handler where
  serial : Nat
  name : String
  script : Script

/-- A buffered reply as sessions hold it. -/
abbrev Response :=
  Buffered Handler

/-- The content of a slot. -/
structure Holding where
  reply : Response
  guarded : Bool

/-- All that outlives a step. -/
structure Session where
  slots : Registry String Holding
  handlers : Registry String Handler
  probes : Registry String Probe
  flags : Flags
  nextId : Nat
  nextSerial : Nat

namespace Session

/-- A session in which nothing has happened. -/
def initial : Session where
  slots := .empty
  handlers := .empty
  probes := .empty
  flags := .empty
  nextId := 0
  nextSerial := 0

end Session

/-- Something that happened while a step was carried out. -/
inductive Event
  | noted (note : Note)
  | fired (serial : Nat) (name : String) (reply : Response) (alive : Bool)
  | reported (handler word : String) (answer : Answer)

/-- The note, if this is one. -/
def Event.note? : Event → Option Note
  | .noted note => some note
  | _ => none

/-- The serial number of the handler that fires here, if one does. -/
def Event.firing? : Event → Option Nat
  | .fired serial _ _ _ => some serial
  | _ => none

end Reply
