import Reply.Status
import Reply.Text.Octets

namespace Reply

/-!
# Bounded buffers

A queue of octets with a fixed capacity.  A write is taken whole or refused
whole; reading drops octets from the front.
-/

/-- Octets waiting to be read, and how many there may be. -/
structure BoundedBuffer where
  capacity : Nat
  contents : Octets

namespace BoundedBuffer

/-- One mebibyte. -/
def defaultCapacity : Nat :=
  1048576

/-- An empty buffer of a capacity. -/
def ofCapacity (capacity : Nat) : BoundedBuffer :=
  ⟨capacity, []⟩

/-- How many octets are held. -/
def length (buffer : BoundedBuffer) : Nat :=
  buffer.contents.length

/-- How many more octets fit. -/
def remaining (buffer : BoundedBuffer) : Nat :=
  buffer.capacity - buffer.length

/-- Append octets if they all fit. -/
def write
    (buffer : BoundedBuffer)
    (octets : Octets) :
    Except Failure BoundedBuffer :=
  if octets.length ≤ buffer.remaining then
    .ok { buffer with contents := buffer.contents ++ octets }
  else
    .error (.overflow octets.length buffer.remaining)

/-- Drop octets from the front, as many as asked for or as there are. -/
def consume (buffer : BoundedBuffer) (count : Nat) : BoundedBuffer :=
  { buffer with contents := buffer.contents.drop count }

/-- Drop all octets. -/
def clear (buffer : BoundedBuffer) : BoundedBuffer :=
  { buffer with contents := [] }

/-- A write that fits is taken whole. -/
theorem write_of_le
    {buffer : BoundedBuffer}
    {octets : Octets}
    (fits : octets.length ≤ buffer.remaining) :
    buffer.write octets =
      .ok { buffer with contents := buffer.contents ++ octets } := by
  simp [write, fits]

/-- A write that does not fit is refused with both numbers. -/
theorem write_of_lt
    {buffer : BoundedBuffer}
    {octets : Octets}
    (exceeds : buffer.remaining < octets.length) :
    buffer.write octets =
      .error (.overflow octets.length buffer.remaining) := by
  simp [write, Nat.not_le.mpr exceeds]

end BoundedBuffer

end Reply
