import Reply.Number.Binary64

namespace Reply

/-!
# Structured payloads

A payload is the structured content of a reply: a JSON value whose numbers are
64-bit integers or finite binary64 numbers, and whose objects list their
entries in key order.  Objects are built by `insertEntry`, which keeps that
order and lets a later entry replace an earlier one of the same key.
-/

/-!
## Integers of 64 bits

The integers that a signed or an unsigned 64-bit word can hold: those from -2^63
up to, but not including, 2^64.
-/

/-- An integer that fits a signed or an unsigned 64-bit word. -/
structure Whole where
  value : Int
  lower : -0x8000000000000000 ≤ value
  upper : value < 0x10000000000000000
  deriving DecidableEq

/-- The integer itself, if it is in range. -/
def Whole.ofInt? (value : Int) : Option Whole :=
  if inRange : -0x8000000000000000 ≤ value ∧ value < 0x10000000000000000 then
    some ⟨value, inRange.1, inRange.2⟩
  else
    none

/-! ## Payloads -/

/-- Structured content. -/
inductive Payload
  | null
  | bool (value : Bool)
  | whole (value : Whole)
  | real (value : Binary64)
  | text (value : String)
  | array (items : List Payload)
  | object (entries : List (String × Payload))

namespace Payload

/-- The payload of a binary64 word; what is not finite becomes null. -/
def ofWord (bits : UInt64) : Payload :=
  if finite : isFiniteWord bits = true then
    .real ⟨bits, finite⟩
  else
    .null

/-- Put an entry in key order, replacing one of the same key. -/
def insertEntry
    (key : String)
    (value : Payload) :
    List (String × Payload) → List (String × Payload)
  | [] => [(key, value)]
  | (present, held) :: rest =>
      if key < present then
        (key, value) :: (present, held) :: rest
      else if key = present then
        (key, value) :: rest
      else
        (present, held) :: insertEntry key value rest

/-- The object that binds keys as listed, a later binding winning. -/
def ofEntries (entries : List (String × Payload)) : Payload :=
  .object (entries.foldl (fun built entry => insertEntry entry.1 entry.2 built) [])

/-- Bind a key of an object; nothing else can be bound in. -/
def insert?
    (payload : Payload)
    (key : String)
    (value : Payload) :
    Option Payload :=
  match payload with
  | .object entries => some (.object (insertEntry key value entries))
  | _ => none

/-- Append to an array; nothing else can be appended to. -/
def push? (payload item : Payload) : Option Payload :=
  match payload with
  | .array items => some (.array (items ++ [item]))
  | _ => none

/-- Null and the empty containers count as no content. -/
def isEmpty : Payload → Bool
  | .null => true
  | .array items => items.isEmpty
  | .object entries => entries.isEmpty
  | _ => false

end Payload

end Reply
