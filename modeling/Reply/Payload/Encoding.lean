import Reply.Digest
import Reply.Payload.Basic
import Reply.Text.Hex

namespace Reply

/-!
# The canonical octets of a payload

Every payload has one canonical run of octets: a tag, then the content with its
length in front wherever it has no fixed width.  Object entries are written in
key order, whatever order they are held in.  `Payload.encode` gives the run and
`Payload.digest` absorbs it piece by piece without building it.  The entity tag is
made from the digest.
-/

/-- A 64-bit word as eight octets, the least significant first. -/
def wordOctets (word : UInt64) : Octets :=
  [word.toUInt8,
    (word >>> 8).toUInt8,
    (word >>> 16).toUInt8,
    (word >>> 24).toUInt8,
    (word >>> 32).toUInt8,
    (word >>> 40).toUInt8,
    (word >>> 48).toUInt8,
    (word >>> 56).toUInt8]

/-- Octets after their number. -/
def sized (octets : Octets) : Octets :=
  wordOctets (UInt64.ofNat octets.length) ++ octets

/-- Whether an integer fits a signed 64-bit word. -/
def Whole.isSigned (number : Whole) : Bool :=
  number.value < 0x8000000000000000

/-- The integer modulo 2^64. -/
def Whole.word (number : Whole) : UInt64 :=
  UInt64.ofNat (number.value % 0x10000000000000000).toNat

/-- A tag for the kind of word, then the word. -/
def Whole.encode (number : Whole) : Octets :=
  (if number.isSigned then 0x69 else 0x75) :: wordOctets number.word

namespace Payload

/-- Keyed values in key order. -/
def sortByKey (entries : List (String × α)) : List (String × α) :=
  entries.mergeSort (fun left right => decide (left.1 ≤ right.1))

mutual

/-- The canonical octets of a payload. -/
def encode : Payload → Octets
  | .null => [0x6e]
  | .bool false => [0x66]
  | .bool true => [0x74]
  | .whole number => number.encode
  | .real number => 0x64 :: wordOctets number.bits
  | .text value => 0x73 :: sized (utf8 value)
  | .array items =>
      0x61 :: (wordOctets (UInt64.ofNat items.length) ++ encodeItems items)
  | .object entries =>
      0x6f ::
        (wordOctets (UInt64.ofNat entries.length) ++
          (sortByKey (encodeValues entries)).flatMap
            fun entry => sized (utf8 entry.1) ++ entry.2)

/-- The canonical octets of array items, in order. -/
def encodeItems : List Payload → Octets
  | [] => []
  | item :: rest => encode item ++ encodeItems rest

/-- The entries of an object with the canonical octets of each value. -/
def encodeValues : List (String × Payload) → List (String × Octets)
  | [] => []
  | (key, value) :: rest => (key, encode value) :: encodeValues rest

end

/-- Absorb octets after their number. -/
def absorbSized (state : UInt64) (octets : Octets) : UInt64 :=
  Digest.absorbAll
    (Digest.absorbAll state (wordOctets (UInt64.ofNat octets.length)))
    octets

mutual

/-- Continue a digest with a payload. -/
def feed : Payload → UInt64 → UInt64
  | .null, state => Digest.absorb state 0x6e
  | .bool false, state => Digest.absorb state 0x66
  | .bool true, state => Digest.absorb state 0x74
  | .whole number, state => Digest.absorbAll state number.encode
  | .real number, state =>
      Digest.absorbAll (Digest.absorb state 0x64) (wordOctets number.bits)
  | .text value, state =>
      absorbSized (Digest.absorb state 0x73) (utf8 value)
  | .array items, state =>
      feedItems items
        (Digest.absorbAll
          (Digest.absorb state 0x61)
          (wordOctets (UInt64.ofNat items.length)))
  | .object entries, state =>
      (sortByKey (feeders entries)).foldl
        (fun reached entry => entry.2 (absorbSized reached (utf8 entry.1)))
        (Digest.absorbAll
          (Digest.absorb state 0x6f)
          (wordOctets (UInt64.ofNat entries.length)))

/-- Continue a digest with array items, in order. -/
def feedItems : List Payload → UInt64 → UInt64
  | [], state => state
  | item :: rest, state => feedItems rest (feed item state)

/-- The entries of an object with what absorbing each value does. -/
def feeders : List (String × Payload) → List (String × (UInt64 → UInt64))
  | [] => []
  | (key, value) :: rest => (key, feed value) :: feeders rest

end

/-- The digest of a payload's content. -/
def digest (payload : Payload) : UInt64 :=
  feed payload Digest.start

end Payload

/-!
## Entity tags

The tag of a payload is the low half of its digest, eight hexadecimal digits
between quotes.  A payload without content has none.
-/

/-- The quoted tag of a digest. -/
def Tag.ofDigest (digest : UInt64) : String :=
  String.ofList ('"' :: (Hex.digits 8 digest ++ ['"']))

/-- The tag of a payload with content. -/
def Payload.tag? (payload : Payload) : Option String :=
  if payload.isEmpty then none else some (Tag.ofDigest payload.digest)

end Reply
