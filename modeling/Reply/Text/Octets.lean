namespace Reply

/-!
# Octets

A reply travels as octets, so lengths, digests and header rules are stated over
lists of octets.  This module fixes how a string becomes octets and which
octets count as visible text.
-/

/-- A run of octets in transmission order. -/
abbrev Octets :=
  List UInt8

/-- The UTF-8 octets of a string. -/
def utf8 (text : String) : Octets :=
  text.toByteArray.data.toList

/-- Distinct strings have distinct octets. -/
theorem utf8_injective
    {left right : String}
    (same : utf8 left = utf8 right) :
    left = right :=
  String.toByteArray_inj.mp
    (ByteArray.ext (Array.toList_inj.mp same))

/-- A string has as many octets as its UTF-8 size says. -/
theorem length_utf8 (text : String) :
    (utf8 text).length = text.utf8ByteSize := by
  rfl

namespace Octet

/-- The horizontal tab. -/
def tab : UInt8 :=
  0x09

/-- The space. -/
def space : UInt8 :=
  0x20

/-- The comma, which separates list items in a header value. -/
def comma : UInt8 :=
  0x2c

/-- A printable ASCII octet or a tab. -/
def isVisible (octet : UInt8) : Bool :=
  octet = tab || (0x20 ≤ octet && octet < 0x7f)

/-- An octet that separates words within a header value. -/
def isBlank (octet : UInt8) : Bool :=
  octet = space || octet = tab

/-- The lower-case form of an ASCII capital; any other octet is itself. -/
def toLower (octet : UInt8) : UInt8 :=
  if 0x41 ≤ octet && octet ≤ 0x5a then octet + 0x20 else octet

end Octet

namespace Octets

/-- Drop the blanks at both ends. -/
def trim (octets : Octets) : Octets :=
  ((octets.dropWhile Octet.isBlank).reverse.dropWhile Octet.isBlank).reverse

/-- Equality up to the case of ASCII letters. -/
def eqIgnoringCase (left right : Octets) : Bool :=
  left.map Octet.toLower = right.map Octet.toLower

/-- The text of octets that are all visible ASCII. -/
def visibleText? (octets : Octets) : Option String :=
  if octets.all Octet.isVisible then
    some (String.ofList (octets.map fun octet => Char.ofNat octet.toNat))
  else
    none

end Octets

end Reply
