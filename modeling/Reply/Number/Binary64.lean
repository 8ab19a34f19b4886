namespace Reply

/-!
# Binary64 numbers

A finite binary64 number is kept as its word: a sign bit, eleven bits of biased
exponent and a fraction of 52 bits.  Its magnitude is significand · 2^exponent,
both decoded from the word exactly.
-/

/-- Whether a binary64 word is neither infinite nor a NaN. -/
def isFiniteWord (bits : UInt64) : Bool :=
  (bits >>> 52) &&& 0x7ff != 0x7ff

/-- A finite binary64 number, as its word. -/
structure Binary64 where
  bits : UInt64
  finite : isFiniteWord bits = true
  deriving DecidableEq

namespace Binary64

/-- Whether the sign bit is set. -/
def isNegative (number : Binary64) : Bool :=
  number.bits >>> 63 == 1

/-- The weight of the lowest bit above the fraction, 2^52. -/
def unit : Nat :=
  0x10000000000000

/-- The low 52 bits. -/
def fraction (number : Binary64) : Nat :=
  number.bits.toNat % unit

/-- The eleven bits above the fraction. -/
def biasedExponent (number : Binary64) : Nat :=
  number.bits.toNat / unit % 0x800

/-- The integer that a power of two scales to the magnitude. -/
def significand (number : Binary64) : Nat :=
  if number.biasedExponent = 0 then
    number.fraction
  else
    number.fraction + unit

/-- The power of two that scales the significand to the magnitude. -/
def binaryExponent (number : Binary64) : Int :=
  if number.biasedExponent = 0 then -1074 else number.biasedExponent - 1075

/-- Whether the next smaller magnitude is only half a step away. -/
def isLowestOfBinade (number : Binary64) : Bool :=
  number.fraction = 0 && 1 < number.biasedExponent

/-- Whether the magnitude is zero. -/
def isZero (number : Binary64) : Bool :=
  number.significand = 0

end Binary64

end Reply
