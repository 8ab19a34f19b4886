import Reply.Number.Shortest
import Reply.Payload.Basic

namespace Reply

/-!
# Payloads as JSON text

The indented JSON text of a payload: two spaces a level, one item or entry a
line, and empty containers closed at once.  Text is written over lists of
characters.
-/

namespace Json

/-- How many digits before and after the point are still written out. -/
structure NumberLayout where
  lowest : Int
  highest : Int

/-- Numbers from 10^-5 up to, but not including, 10^16 are written out. -/
def numberLayout : NumberLayout :=
  ⟨-5, 15⟩

/-- The digits of a natural number. -/
def natural (value : Nat) : List Char :=
  Nat.toDigits 10 value

/-- The digits of an integer after its sign, if it is negative. -/
def integer (value : Int) : List Char :=
  if value < 0 then '-' :: natural value.natAbs else natural value.natAbs

/-- Digits written out, given the power of ten of the first. -/
def positional (digits : List Char) (leading : Int) : List Char :=
  if leading < 0 then
    '0' :: '.' :: (List.replicate (-leading - 1).toNat '0' ++ digits)
  else
    let whole := leading.toNat + 1
    let fraction := digits.drop whole
    digits.take whole ++
      List.replicate (whole - digits.length) '0' ++
      '.' :: (if fraction.isEmpty then ['0'] else fraction)

/-- Digits with the power of ten of the first written after them. -/
def scientific (digits : List Char) (leading : Int) : List Char :=
  let mantissa :=
    match digits with
    | [] => []
    | [only] => [only]
    | first :: rest => first :: '.' :: rest
  mantissa ++
    'e' :: (if leading < 0 then '-' else '+') :: natural leading.natAbs

/-- A magnitude, written out where the layout allows it. -/
def magnitude (layout : NumberLayout) (number : Decimal) : List Char :=
  let digits := natural number.coefficient
  let leading := number.exponent + digits.length - 1
  if layout.lowest ≤ leading && leading ≤ layout.highest then
    positional digits leading
  else
    scientific digits leading

/-- A binary64 number by its shortest decimal. -/
def real (number : Binary64) : List Char :=
  let text :=
    if number.isZero then
      ['0', '.', '0']
    else
      magnitude numberLayout (Shortest.decimal number)
  if number.isNegative then '-' :: text else text

/-- The lower-case digit of a value below sixteen. -/
def hexDigit (value : Nat) : Char :=
  if value < 10 then Char.ofNat (0x30 + value) else Char.ofNat (0x57 + value)

/-- A character of a string literal. -/
def escaped (char : Char) : List Char :=
  if char = '"' then ['\\', '"']
  else if char = '\\' then ['\\', '\\']
  else if char = '\x08' then ['\\', 'b']
  else if char = '\x09' then ['\\', 't']
  else if char = '\x0a' then ['\\', 'n']
  else if char = '\x0c' then ['\\', 'f']
  else if char = '\x0d' then ['\\', 'r']
  else if char.toNat < 0x20 then
    ['\\', 'u', '0', '0', hexDigit (char.toNat / 16), hexDigit (char.toNat % 16)]
  else
    [char]

/-- A string literal. -/
def quoted (text : List Char) : List Char :=
  '"' :: (text.flatMap escaped ++ ['"'])

/-- A line break and the indentation of a depth. -/
def lineAt (depth : Nat) : List Char :=
  '\n' :: List.replicate (2 * depth) ' '

mutual

/-- A payload whose first line is already indented to a depth. -/
def render (depth : Nat) : Payload → List Char
  | .null => ['n', 'u', 'l', 'l']
  | .bool true => ['t', 'r', 'u', 'e']
  | .bool false => ['f', 'a', 'l', 's', 'e']
  | .whole number => integer number.value
  | .real number => real number
  | .text value => quoted value.toList
  | .array [] => ['[', ']']
  | .array (item :: rest) =>
      '[' :: (lineAt (depth + 1) ++ render (depth + 1) item ++
        renderItems (depth + 1) rest ++ lineAt depth ++ [']'])
  | .object [] => ['{', '}']
  | .object ((key, value) :: rest) =>
      '{' :: (lineAt (depth + 1) ++ quoted key.toList ++ ':' :: ' ' ::
        (render (depth + 1) value ++
          renderEntries (depth + 1) rest ++ lineAt depth ++ ['}']))

/-- Further items of an array. -/
def renderItems (depth : Nat) : List Payload → List Char
  | [] => []
  | item :: rest =>
      ',' :: (lineAt depth ++ render depth item ++ renderItems depth rest)

/-- Further entries of an object. -/
def renderEntries (depth : Nat) : List (String × Payload) → List Char
  | [] => []
  | (key, value) :: rest =>
      ',' :: (lineAt depth ++ quoted key.toList ++ ':' :: ' ' ::
        (render depth value ++ renderEntries depth rest))

end

end Json

/-- The indented JSON text of a payload. -/
def Payload.toJson (payload : Payload) : String :=
  String.ofList (Json.render 0 payload)

end Reply
