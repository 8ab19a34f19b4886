import Reply.Registry

namespace Reply

/-!
# Notes and probes

What goes along with a reply.  An operation leaves notes behind for operators to
see: log records and increments of counters, in the order they were made.  A probe
tells whether the connection that the reply is for is still there.
-/

/-- How a reply holds its body. -/
inductive Variant
  | buffered
  | streaming
  deriving DecidableEq

/-- The label value of a variant. -/
def Variant.text : Variant → String
  | .buffered => "buffered"
  | .streaming => "streaming"

/-- What is counted. -/
inductive Counter
  | finalized (variant : Variant) (code : Nat)
  | finalizedTwice (variant : Variant)
  | notModified
  | overflow
  deriving DecidableEq

namespace Counter

/-- A counter's name with its labels, sorted, in braces. -/
def labelled (name : String) (labels : List (String × String)) : String :=
  name ++ "\x7b" ++
    String.intercalate "," (labels.map fun label => label.1 ++ "=" ++ label.2) ++
    "\x7d"

/-- The key a counter is exported under. -/
def key : Counter → String
  | .finalized variant code =>
      labelled "response_finalized_total"
        [("status", toString code), ("variant", variant.text)]
  | .finalizedTwice variant =>
      labelled "response_double_finalize_total" [("variant", variant.text)]
  | .notModified => labelled "response_not_modified_total" []
  | .overflow => labelled "response_stream_overflow_total" []

end Counter

/-- The severity of a log record. -/
inductive Level
  | error
  | warn
  | info
  | debug
  deriving DecidableEq

/-- The severity as it is written. -/
def Level.text : Level → String
  | .error => "ERROR"
  | .warn => "WARN"
  | .info => "INFO"
  | .debug => "DEBUG"

/-- One thing noted during an operation. -/
inductive Note
  | logged (level : Level) (text : String)
  | counted (counter : Counter)
  deriving DecidableEq

namespace Note

/-- The log record, if this is one. -/
def record? : Note → Option (Level × String)
  | .logged level text => some (level, text)
  | .counted _ => none

/-- The counter, if this is an increment. -/
def counter? : Note → Option Counter
  | .logged _ _ => none
  | .counted counter => some counter

/-- The log lines among notes, in order. -/
def lines (notes : List Note) : List String :=
  (notes.filterMap record?).map fun record =>
    record.1.text ++ " " ++ record.2

/-- How often each counter was incremented. -/
def totals (notes : List Note) : List (Counter × Nat) :=
  let counters := notes.filterMap counter?
  counters.eraseDups.map fun counter => (counter, counters.count counter)

end Note

/-- A value with the notes taken on the way to it. -/
structure Noted (α : Type) where
  value : α
  notes : List Note

/-- A value reached without a note. -/
def Noted.silent (value : α) : Noted α :=
  ⟨value, []⟩

/-!
## Liveness probes

Whoever owns a connection keeps a named flag for it.  A probe watches one flag;
a flag nobody has lowered is up.  Probes are told apart by a serial number.
-/

/-- The flags that connection owners have set. -/
abbrev Flags :=
  Registry String Bool

/-- Whether a flag is up. -/
def Flags.isUp (flags : Flags) (flag : String) : Bool :=
  (flags.get? flag).getD true

/-- Set flags one after the other. -/
def Flags.signalled (flags : Flags) (signals : List (String × Bool)) : Flags :=
  signals.foldl (fun flags signal => flags.put signal.1 signal.2) flags

/-- A watch on one flag. -/
structure Probe where
  serial : Nat
  flag : String
  deriving DecidableEq

/-- Whether a probe is there and finds its flag up. -/
def Probe.isAlive (flags : Flags) : Option Probe → Bool
  | some probe => flags.isUp probe.flag
  | none => false

end Reply
