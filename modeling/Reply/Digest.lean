import Reply.Text.Octets

namespace Reply

/-!
# Digests

The 64-bit FNV-1a digest of a run of octets.  Absorbing is a left fold, so a
digest may be continued piece by piece.
-/

namespace Digest

/-- The state before anything is absorbed. -/
def start : UInt64 :=
  0xcbf29ce484222325

/-- The odd factor of each round. -/
def factor : UInt64 :=
  0x100000001b3

/-- Absorb one octet. -/
def absorb (state : UInt64) (octet : UInt8) : UInt64 :=
  (state ^^^ octet.toUInt64) * factor

/-- Absorb octets from left to right. -/
def absorbAll (state : UInt64) (octets : Octets) : UInt64 :=
  octets.foldl absorb state

/-- The digest of a whole run. -/
def ofOctets (octets : Octets) : UInt64 :=
  absorbAll start octets

@[simp] theorem absorbAll_nil (state : UInt64) :
    absorbAll state [] = state :=
  rfl

@[simp] theorem absorbAll_cons
    (state : UInt64)
    (octet : UInt8)
    (rest : Octets) :
    absorbAll state (octet :: rest) = absorbAll (absorb state octet) rest :=
  rfl

/-- Absorbing two runs one after the other absorbs their concatenation. -/
theorem absorbAll_append
    (state : UInt64)
    (left right : Octets) :
    absorbAll state (left ++ right) =
      absorbAll (absorbAll state left) right := by
  simp [absorbAll, List.foldl_append]

end Digest

end Reply
