import Reply.Headers
import Reply.Status

namespace Reply

/-!
# Connection options

The connection field lists options, separated by commas.  Whether a connection
persists follows from the marker options `close` and `keep-alive`: versions
before 1.1 persist only when asked to, later ones unless told otherwise.  The
other options are none of this module's concern and are kept.
-/

namespace Connection

/-- The option that ends the connection. -/
def close : Octets :=
  utf8 "close"

/-- The option that keeps a connection of an early version open. -/
def keepAlive : Octets :=
  utf8 "keep-alive"

/-- The options of one field value; an unreadable value has none. -/
def optionsOf (value : Field.Value) : List Octets :=
  if value.octets.all Octet.isVisible then
    ((value.octets.splitOn Octet.comma).map Octets.trim).filter
      fun option => !option.isEmpty
  else
    []

/-- All options listed in a header section, in order. -/
def options (headers : Headers) : List Octets :=
  (headers.values .connection).flatMap optionsOf

/-- Whether an option is a marker of persistence. -/
def isMarker (option : Octets) : Bool :=
  option.eqIgnoringCase close || option.eqIgnoringCase keepAlive

/-- Whether the connection stays open after the message. -/
def persists (version : Version) (headers : Headers) : Bool :=
  if version.isEarly then
    (options headers).any fun option => option.eqIgnoringCase keepAlive
  else
    !(options headers).any fun option => option.eqIgnoringCase close

/-- The marker needed to state persistence against a version's default. -/
def marker? (version : Version) (keep : Bool) : Option Octets :=
  match version.isEarly, keep with
  | true, true => some keepAlive
  | false, false => some close
  | _, _ => none

/-- The options after stating persistence: the markers replaced, others kept. -/
def restated
    (version : Version)
    (keep : Bool)
    (headers : Headers) :
    List Octets :=
  (options headers).filter (fun option => !isMarker option) ++
    (marker? version keep).toList

/-- One field value that lists options. -/
def listing (options : List Octets) : Octets :=
  [Octet.comma, Octet.space].intercalate options

/-- State in the header section whether the connection persists. -/
def persist
    (version : Version)
    (keep : Bool)
    (headers : Headers) :
    Headers :=
  match restated version keep headers with
  | [] => headers.remove .connection
  | first :: rest =>
      match Field.Value.ofOctets? (listing (first :: rest)) with
      | some value => headers.set .connection value
      | none => headers.remove .connection

end Connection

end Reply
