import Reply.Text.Octets

namespace Reply

/-!
# Field values

A header field value is a run of octets without control characters: tabs are
allowed, and so is anything from 0x80 on.  Only values of visible ASCII can be
read as text.
-/

namespace Field

/-- Whether an octet may stand in a field value. -/
def isValueOctet (octet : UInt8) : Bool :=
  octet = Octet.tab || (0x20 ≤ octet && octet ≠ 0x7f)

/-- The octets of a field value. -/
structure Value where
  octets : Octets
  deriving DecidableEq

namespace Value

/-- Accept octets that may all stand in a field value. -/
def ofOctets? (octets : Octets) : Option Value :=
  if octets.all isValueOctet then some ⟨octets⟩ else none

/-- Accept a string by its octets. -/
def ofText? (text : String) : Option Value :=
  ofOctets? (utf8 text)

/-- The media type of JSON text. -/
def applicationJson : Value :=
  ⟨utf8 "application/json"⟩

/-- A natural number in decimal. -/
def ofNat (number : Nat) : Value :=
  ⟨utf8 (String.ofList (Nat.toDigits 10 number))⟩

/-- The value as text, if all of it is visible ASCII. -/
def text? (value : Value) : Option String :=
  value.octets.visibleText?

end Value

end Field

end Reply
