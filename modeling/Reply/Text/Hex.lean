namespace Reply

/-!
# Fixed-width hexadecimal

A 64-bit word is written with a given number of lower-case digits.  Fewer than
sixteen digits keep only the low part of the word; more are filled with zeros.
-/

namespace Hex

/-- The low `digits` hexadecimal places of a word; all of it from sixteen on. -/
def low (digits : Nat) (word : UInt64) : UInt64 :=
  if digits < 16 then
    word &&& ((1 <<< UInt64.ofNat (4 * digits)) - 1)
  else
    word

/-- The digits of a word at a width; a width of zero still shows one digit. -/
def digits (width : Nat) (word : UInt64) : List Char :=
  (Nat.toDigits 16 (low width word).toNat).leftpad width '0'

/-- The text of a word at a width. -/
def render (width : Nat) (word : UInt64) : String :=
  String.ofList (digits width word)

/-- The number a hexadecimal digit stands for. -/
def digitValue? (digit : Char) : Option Nat :=
  if '0' ≤ digit && digit ≤ '9' then
    some (digit.toNat - 0x30)
  else if 'a' ≤ digit && digit ≤ 'f' then
    some (digit.toNat - 0x61 + 10)
  else if 'A' ≤ digit && digit ≤ 'F' then
    some (digit.toNat - 0x41 + 10)
  else
    none

/-- Read digits on from a value, most significant first. -/
def readFrom? : Nat → List Char → Option Nat
  | value, [] => some value
  | value, digit :: rest =>
      match digitValue? digit with
      | some place => readFrom? (16 * value + place) rest
      | none => none

/-- The number written by a non-empty run of hexadecimal digits. -/
def read? (text : List Char) : Option Nat :=
  if text.isEmpty then none else readFrom? 0 text

end Hex

end Reply
