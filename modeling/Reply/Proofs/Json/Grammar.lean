import Reply.Proofs.Payload.Bindings
import Reply.Text.Hex

namespace Reply

/-!
# The JSON grammar

What a JSON text is, and the payload it stands for, said of the text alone and not
through a reader.  White space may stand around every value, a character of a string
may be written in several ways, a numeral may have a fraction and an exponent, and an
object may bind a key more than once: the last binding counts.

Nothing is ambiguous in this.  Each value can be read off whatever follows it, because
its first character tells its kind and no kind goes on where a value has to end.  Which
number a numeral stands for that is no 64-bit integer is left open, and so is what else
a text may stand for once it has such a numeral.
-/

namespace Json

/-! ## White space -/

/-- Whether a character is white space between values. -/
def isSpace (char : Char) : Bool :=
  char = ' ' || char = '\t' || char = '\n' || char = '\r'

/-- A gap between values: white space, which may be none. -/
structure Gap where
  text : List Char
  spaces : ∀ char ∈ text, isSpace char = true

/-! ## Strings -/

/-- What may stand after a backslash, and the character meant by it. -/
def shortEscapes : List (Char × Char) :=
  [('"', '"'), ('\\', '\\'), ('/', '/'), ('b', '\x08'), ('f', '\x0c'),
    ('n', '\n'), ('r', '\r'), ('t', '\t')]

/-- A code written with four hexadecimal digits. -/
def Coded (code : Nat) (digits : List Char) : Prop :=
  digits.length = 4 ∧ Hex.read? digits = some code

/--
The ways to write a character within a string: as itself, by an escape of its own, by
its code, or by two codes if its own has more than four digits.
-/
inductive Writes : Char → List Char → Prop
  | plain
      {char : Char}
      (printable : 0x20 ≤ char.toNat)
      (noQuote : char ≠ '"')
      (noBackslash : char ≠ '\\') :
      Writes char [char]
  | short
      {letter char : Char}
      (listed : (letter, char) ∈ shortEscapes) :
      Writes char ['\\', letter]
  | coded
      {char : Char}
      {digits : List Char}
      (code : Coded char.toNat digits) :
      Writes char ('\\' :: 'u' :: digits)
  | paired
      {char : Char}
      {high low : Nat}
      {highDigits lowDigits : List Char}
      (highCode : Coded high highDigits)
      (lowCode : Coded low lowDigits)
      (isHigh : 0xd800 ≤ high ∧ high < 0xdc00)
      (isLow : 0xdc00 ≤ low ∧ low < 0xe000)
      (code :
        char.toNat = 0x10000 + 0x400 * (high - 0xd800) + (low - 0xdc00)) :
      Writes char
        ('\\' :: 'u' :: (highDigits ++ '\\' :: 'u' :: lowDigits))

/-- The characters of a string, one written after the other. -/
inductive Literal : List Char → List Char → Prop
  | nil : Literal [] []
  | cons
      {char : Char}
      {form text remainder : List Char}
      (writes : Writes char form)
      (rest : Literal text remainder) :
      Literal (char :: text) (form ++ remainder)

/-- A string between its quotes. -/
def Quotes (text : String) (form : List Char) : Prop :=
  ∃ inner, Literal text.toList inner ∧ form = '"' :: (inner ++ ['"'])

/-! ## Numerals -/

/-- One or more decimal digits. -/
def Digits (text : List Char) : Prop :=
  text ≠ [] ∧ ∀ char ∈ text, char.isDigit = true

/-- A numeral: its digits before the point, and what may stand around them. -/
structure Numeral where
  negative : Bool
  whole : List Char
  fraction : List Char
  exponent : List Char
  digits : Digits whole
  noLeadingZero : whole.head? = some '0' → whole = ['0']
  isFraction :
    fraction = [] ∨ ∃ digits, Digits digits ∧ fraction = '.' :: digits
  isExponent :
    exponent = [] ∨
      ∃ mark sign digits,
        (mark = 'e' ∨ mark = 'E') ∧
          (sign = [] ∨ sign = ['+'] ∨ sign = ['-']) ∧
          Digits digits ∧
          exponent = mark :: (sign ++ digits)

namespace Numeral

/-- A numeral as it is written. -/
def text (numeral : Numeral) : List Char :=
  (if numeral.negative then ['-'] else []) ++
    (numeral.whole ++ (numeral.fraction ++ numeral.exponent))

/--
The integer of a numeral without a fraction and an exponent.  A negative zero is none:
it is a floating point number.
-/
def integer? (numeral : Numeral) : Option Int :=
  if numeral.fraction = [] ∧ numeral.exponent = [] ∧
      ¬(numeral.negative = true ∧ numeral.whole = ['0']) then
    some
      (if numeral.negative then
        -(Nat.ofDigitChars 10 numeral.whole 0 : Int)
      else
        (Nat.ofDigitChars 10 numeral.whole 0 : Int))
  else
    none

end Numeral

/-! ## Values -/

/-- An item of an array: a payload in some form, with the gaps around it. -/
structure Item where
  before : Gap
  payload : Payload
  form : List Char
  after : Gap

/-- An entry of an object: a key with gaps around it, and the item after its colon. -/
structure Entry where
  before : Gap
  key : String
  form : List Char
  quotes : Quotes key form
  after : Gap
  item : Item

/-- An item as it is written. -/
def Item.text (item : Item) : List Char :=
  item.before.text ++ (item.form ++ item.after.text)

/-- An entry as it is written. -/
def Entry.text (entry : Entry) : List Char :=
  entry.before.text ++
    (entry.form ++ (entry.after.text ++ ':' :: entry.item.text))

/-- What an entry binds. -/
def Entry.binding (entry : Entry) : String × Payload :=
  (entry.key, entry.item.payload)

/-- What stands within a container: its parts with commas between, or a gap. -/
inductive Lists : List (List Char) → List Char → Prop
  | none (gap : Gap) : Lists [] gap.text
  | some
      (first : List Char)
      (rest : List (List Char)) :
      Lists (first :: rest) (List.intercalate [','] (first :: rest))

/-- The forms of a value.  An object is spelled with its bindings as they are listed. -/
inductive Spells : Payload → List Char → Prop
  | null : Spells .null ['n', 'u', 'l', 'l']
  | isTrue : Spells (.bool true) ['t', 'r', 'u', 'e']
  | isFalse : Spells (.bool false) ['f', 'a', 'l', 's', 'e']
  | whole
      {numeral : Numeral}
      {number : Whole}
      (value : numeral.integer? = some number.value) :
      Spells (.whole number) numeral.text
  | real
      {numeral : Numeral}
      {number : Binary64}
      (other : ∀ whole : Whole, numeral.integer? ≠ some whole.value) :
      Spells (.real number) numeral.text
  | text
      {value : String}
      {form : List Char}
      (quotes : Quotes value form) :
      Spells (.text value) form
  | array
      {items : List Item}
      {inner : List Char}
      (lists : Lists (items.map Item.text) inner)
      (each : ∀ item ∈ items, Spells item.payload item.form) :
      Spells (.array (items.map Item.payload)) ('[' :: (inner ++ [']']))
  | object
      {entries : List Entry}
      {inner : List Char}
      (lists : Lists (entries.map Entry.text) inner)
      (each : ∀ entry ∈ entries, Spells entry.item.payload entry.item.form) :
      Spells (.object (entries.map Entry.binding)) ('{' :: (inner ++ ['}']))

/--
Whether a text is JSON for a payload: a value with gaps around it, in whose objects a
later binding of a key replaces an earlier one.
-/
def Means (text : String) (payload : Payload) : Prop :=
  ∃ item : Item,
    text.toList = item.text ∧
      Spells item.payload item.form ∧
      item.payload.built = payload

end Json

end Reply
