import Reply.Toml.Moment
import Reply.Toml.Quoted
import Reply.Toml.Table

namespace Reply

/-!
# TOML keys, values and entries

An entry binds a key to a value.  Keys may be dotted.  Values are scalars,
arrays and inline tables; arrays may span lines and hold comments, inline
tables may not.  Nesting ends at a fixed depth.
-/

namespace Toml

/-- Keys have fewer parts than this, and values nest less deeply. -/
def nestingLimit : Nat :=
  80

/-- A character of a key without quotes. -/
def isKeyChar (char : Char) : Bool :=
  char.isAlphanum || char = '-' || char = '_'

/-- Take one part of a key. -/
def keyPart? : Scan String
  | '"' :: rest =>
      (basicRest rest).map fun scanned => (String.ofList scanned.1, scanned.2)
  | '\x27' :: rest =>
      (literalRest rest).map fun scanned =>
        (String.ofList scanned.1, scanned.2)
  | text =>
      let word := text.takeWhile isKeyChar
      if word.isEmpty then
        none
      else
        some (String.ofList word, text.dropWhile isKeyChar)

/-- Take one part of a key with the blanks around it. -/
def spacedKeyPart? (text : List Char) : Option (String × List Char) :=
  (keyPart? (skipBlanks text)).map fun scanned =>
    (scanned.1, skipBlanks scanned.2)

/-- A key: the parts that lead to a table, and the last part. -/
abbrev Key :=
  List String × String

/-- Take a key with the blanks around it. -/
def key? (text : List Char) : Option (Key × List Char) := do
  let (parts, rest) ← separated spacedKeyPart? '.' text
  let last ← parts.getLast?
  if parts.length < nestingLimit then
    some ((parts.dropLast, last), rest)
  else
    none

/-- Take an entry with the blanks around it. -/
def binding? (item : Scan Value) (text : List Char) :
    Option ((Key × Value) × List Char) := do
  let (key, text) ← key? text
  let text ← expect? '=' text
  let (value, rest) ← item (skipBlanks text)
  some ((key, value), skipBlanks rest)

/-- Take a value that holds no others. -/
def scalar? (text : List Char) : Option (Value × List Char) :=
  match text with
  | 't' :: 'r' :: 'u' :: 'e' :: rest => some (.truth true, rest)
  | 'f' :: 'a' :: 'l' :: 's' :: 'e' :: rest => some (.truth false, rest)
  | _ =>
      match quoted? text with
      | some (chars, rest) => some (.text (String.ofList chars), rest)
      | none =>
          match afterMoment? text, number? text with
          | some rest, _ => some (.moment, rest)
          | none, some (.integer value, rest) => some (.integer value, rest)
          | none, some (.float, rest) => some (.float, rest)
          | none, none => none

/-- Take an item of an array with the filler around it. -/
def arrayItem? (item : Scan Value) (text : List Char) :
    Option (Value × List Char) :=
  (item (skipFiller text)).map fun scanned =>
    (scanned.1, skipFiller scanned.2)

/-- The text after the comma that may stand behind the last item. -/
def afterLastComma (text : List Char) : List Char :=
  match expect? ',' text with
  | some rest => skipFiller rest
  | none => text

/-- Take the rest of an array after its opening bracket. -/
def arrayRest? (item : Scan Value) (text : List Char) :
    Option (Value × List Char) :=
  match expect? ']' (skipFiller text) with
  | some rest => some (.array [], rest)
  | none => do
      let (items, rest) ← separated (arrayItem? item) ',' text
      let rest ← expect? ']' (afterLastComma rest)
      some (.array items, rest)

/-- The table that the entries of an inline table make. -/
def tableOf? (entries : List (Key × Value)) : Option Entries :=
  entries.foldlM
    (fun made entry => Entries.define entry.1.2 entry.2 entry.1.1 true made)
    []

/-- Take the rest of an inline table after its opening brace. -/
def inlineTableRest? (item : Scan Value) (text : List Char) :
    Option (Value × List Char) :=
  match expect? '}' (skipBlanks text) with
  | some rest => some (.table [], rest)
  | none => do
      let (entries, rest) ← separated (binding? item) ',' text
      let rest ← expect? '}' rest
      let made ← tableOf? entries
      some (.table (finishEntries made), rest)

/-- Take a value in which others nest at most to a depth. -/
def value? : Nat → Scan Value
  | 0, text => scalar? text
  | depth + 1, text =>
      match text with
      | '[' :: rest => arrayRest? (value? depth) rest
      | '{' :: rest => inlineTableRest? (value? depth) rest
      | _ => scalar? text

end Toml

end Reply
