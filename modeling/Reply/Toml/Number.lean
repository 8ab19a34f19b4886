import Reply.Text.Hex
import Reply.Toml.Scan

namespace Reply

/-!
# TOML numbers

Integers are decimal with an optional sign, or hexadecimal, octal or binary
behind `0x`, `0o` or `0b`; they fit a signed 64-bit word.  A fraction, an
exponent or one of the words `inf` and `nan` makes a number a float.  Single
underscores may stand between digits.

Floats carry no value: no setting is one.  They are still judged, for a text
with a float that is too large is refused as a whole.
-/

namespace Toml

/-- A decimal digit. -/
def isDigit (char : Char) : Bool :=
  '0' ≤ char && char ≤ '9'

/-- A hexadecimal digit in either case. -/
def isHexDigit (char : Char) : Bool :=
  (Hex.digitValue? char).isSome

/-- An octal digit. -/
def isOctalDigit (char : Char) : Bool :=
  '0' ≤ char && char ≤ '7'

/-- A binary digit. -/
def isBinaryDigit (char : Char) : Bool :=
  char = '0' || char = '1'

/-- Take further digits, each after at most one underscore. -/
def moreDigits (accepts : Char → Bool) : List Char → List Char × List Char
  | '_' :: digit :: rest =>
      if accepts digit then
        let more := moreDigits accepts rest
        (digit :: more.1, more.2)
      else
        ([], '_' :: digit :: rest)
  | digit :: rest =>
      if accepts digit then
        let more := moreDigits accepts rest
        (digit :: more.1, more.2)
      else
        ([], digit :: rest)
  | [] => ([], [])

/-- Take digits, at least one. -/
def digits? (accepts : Char → Bool) : Scan (List Char)
  | digit :: rest =>
      if accepts digit then
        let more := moreDigits accepts rest
        some (digit :: more.1, more.2)
      else
        none
  | [] => none

/-- Take decimal digits without a zero in front of others. -/
def plainDigits? : Scan (List Char)
  | '0' :: rest => some (['0'], rest)
  | text => digits? isDigit text

/-- Take a sign; the result is whether it was a minus. -/
def sign : List Char → Bool × List Char
  | '-' :: rest => (true, rest)
  | '+' :: rest => (false, rest)
  | text => (false, text)

/-- The value of digits in a base. -/
def valueOf (base : Nat) (digits : List Char) : Nat :=
  digits.foldl
    (fun value digit => base * value + (Hex.digitValue? digit).getD 0)
    0

/-- A value negated where there was a minus. -/
def signed (negative : Bool) (value : Nat) : Int :=
  if negative then -(value : Int) else value

/-- A number as it was read. -/
inductive Number
  | integer (value : Int)
  | float
  deriving DecidableEq

/-- An integer, if it fits a signed 64-bit word. -/
def Number.ofInt? (value : Int) : Option Number :=
  if -0x8000000000000000 ≤ value ∧ value < 0x8000000000000000 then
    some (.integer value)
  else
    none

/-- Take an integer in a base other than ten, given after its base. -/
def based?
    (accepts : Char → Bool)
    (base : Nat) :
    Scan Number :=
  fun text =>
    match digits? accepts text with
    | some (digits, rest) =>
        (Number.ofInt? (valueOf base digits)).map (·, rest)
    | none => none

/-- Take a point and the digits after it; without a point there are none. -/
def fraction? : Scan (List Char)
  | '.' :: rest => digits? isDigit rest
  | text => some ([], text)

/-- Take a power of ten with an optional sign. -/
def power? (text : List Char) : Option (Option Int × List Char) :=
  let minus := sign text
  (digits? isDigit minus.2).map fun scanned =>
    (some (signed minus.1 (valueOf 10 scanned.1)), scanned.2)

/-- Take a mark and the power of ten after it; without a mark there is none. -/
def exponent? : Scan (Option Int)
  | 'e' :: rest => power? rest
  | 'E' :: rest => power? rest
  | text => some (none, text)

/--
Whether coefficient · 10^power is too large for a float.

The first number that rounds to infinity is 2^1024 - 2^970, which has 309
digits, so the power alone decides for much larger and much smaller numbers.
-/
def overflows (coefficient : Nat) (power : Int) : Bool :=
  let places : Int := (Nat.toDigits 10 coefficient).length
  if coefficient = 0 || power + places < 300 then
    false
  else if 320 < power + places then
    true
  else
    (Nat.pow 2 1024 - Nat.pow 2 970) * Nat.pow 10 (-power).toNat ≤
      coefficient * Nat.pow 10 power.toNat

/-- Take a decimal number. -/
def decimal? (text : List Char) : Option (Number × List Char) := do
  let (negative, text) := sign text
  let (whole, text) ← plainDigits? text
  let (fraction, text) ← fraction? text
  let (power, rest) ← exponent? text
  if fraction.isEmpty && power.isNone then
    (Number.ofInt? (signed negative (valueOf 10 whole))).map (·, rest)
  else if !negative &&
      overflows (valueOf 10 (whole ++ fraction))
        (power.getD 0 - fraction.length) then
    none
  else
    some (.float, rest)

/-- Take a word that stands for a float. -/
def floatWord? (text : List Char) : Option (Number × List Char) :=
  match (sign text).2 with
  | 'i' :: 'n' :: 'f' :: rest => some (.float, rest)
  | 'n' :: 'a' :: 'n' :: rest => some (.float, rest)
  | _ => none

/-- Take a number. -/
def number? : Scan Number
  | '0' :: 'x' :: rest => based? isHexDigit 16 rest
  | '0' :: 'o' :: rest => based? isOctalDigit 8 rest
  | '0' :: 'b' :: rest => based? isBinaryDigit 2 rest
  | text => (floatWord? text).orElse fun _ => decimal? text

end Toml

end Reply
