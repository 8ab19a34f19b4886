import Reply.Text.Hex
import Reply.Toml.Scan

namespace Reply

/-!
# TOML strings

Basic strings stand in double quotes and know escapes; literal strings stand in
single quotes and do not.  Both have a form in triple quotes that may span
lines: a line end right after the opening quotes is dropped, and one or two
quotes may stand inside and right before the closing ones.
-/

namespace Toml

/-- A character that may stand in a basic string without an escape. -/
def isBasicChar (char : Char) : Bool :=
  char = '\t' || (' ' ≤ char && char ≤ '~' && char ≠ '"' && char ≠ '\\') ||
    isBeyondAscii char

/-- A character that may stand in a literal string. -/
def isLiteralChar (char : Char) : Bool :=
  char = '\t' || (' ' ≤ char && char ≤ '~' && char ≠ '\x27') ||
    isBeyondAscii char

/-- The character of a code point, unless it is a surrogate or too large. -/
def charOfCode? (code : Nat) : Option Char :=
  if valid : code.isValidChar then some (Char.ofNatAux code valid) else none

/-- The character that hexadecimal digits stand for. -/
def charOfHex? (digits : List Char) : Option Char :=
  (Hex.read? digits).bind charOfCode?

/-- Take what follows a backslash. -/
def escape? : Scan Char
  | 'b' :: rest => some ('\x08', rest)
  | 't' :: rest => some ('\t', rest)
  | 'n' :: rest => some ('\n', rest)
  | 'f' :: rest => some ('\x0c', rest)
  | 'r' :: rest => some ('\r', rest)
  | '"' :: rest => some ('"', rest)
  | '\\' :: rest => some ('\\', rest)
  | 'u' :: rest =>
      if 4 ≤ rest.length then
        (charOfHex? (rest.take 4)).map (·, rest.drop 4)
      else
        none
  | 'U' :: rest =>
      if 8 ≤ rest.length then
        (charOfHex? (rest.take 8)).map (·, rest.drop 8)
      else
        none
  | _ => none

theorem length_lt_of_escape?
    {text rest : List Char}
    {char : Char}
    (taken : escape? text = some (char, rest)) :
    rest.length < text.length := by
  unfold escape? at taken
  split at taken <;> grind [Option.map_eq_some_iff]

/-- Take the rest of a basic string and its closing quote. -/
def basicRest (text : List Char) : Option (List Char × List Char) :=
  match text with
  | [] => none
  | '"' :: rest => some ([], rest)
  | '\\' :: rest =>
      match taken : escape? rest with
      | none => none
      | some (char, after) =>
          have := length_lt_of_escape? taken
          (basicRest after).map fun scanned => (char :: scanned.1, scanned.2)
  | char :: rest =>
      if isBasicChar char then
        (basicRest rest).map fun scanned => (char :: scanned.1, scanned.2)
      else
        none
termination_by text.length

/-- Take the rest of a literal string and its closing quote. -/
def literalRest : Scan (List Char)
  | [] => none
  | '\x27' :: rest => some ([], rest)
  | char :: rest =>
      if isLiteralChar char then
        (literalRest rest).map fun scanned => (char :: scanned.1, scanned.2)
      else
        none

/-- The quotes before the closing three, two at the most. -/
def quotesBefore (quote : Char) (text : List Char) : List Char × List Char :=
  match text with
  | first :: second :: rest =>
      if first = quote then
        if second = quote then
          ([quote, quote], rest)
        else
          ([quote], second :: rest)
      else
        ([], text)
  | [first] => if first = quote then ([quote], []) else ([], text)
  | [] => ([], [])

/-- The text after a line-ending backslash: blanks, a line end, and breaks. -/
def afterContinuation? (text : List Char) : Option (List Char) :=
  (afterLineEnd? (skipBlanks text)).map skipBreaks

theorem length_skipBreaks_le (text : List Char) :
    (skipBreaks text).length ≤ text.length := by
  fun_induction skipBreaks text with
  | case1 rest inductionHypothesis =>
      simp only [List.length_cons]
      omega
  | case2 char rest _ _ inductionHypothesis =>
      simp only [List.length_cons]
      omega
  | case3 => exact Nat.le_refl _
  | case4 => exact Nat.le_refl _

theorem length_lt_of_afterLineEnd?
    {text rest : List Char}
    (taken : afterLineEnd? text = some rest) :
    rest.length < text.length := by
  unfold afterLineEnd? at taken
  split at taken <;> grind [Option.map_eq_some_iff]

theorem length_lt_of_afterContinuation?
    {text rest : List Char}
    (taken : afterContinuation? text = some rest) :
    rest.length < text.length := by
  unfold afterContinuation? at taken
  obtain ⟨after, ended, same⟩ := Option.map_eq_some_iff.mp taken
  have shorter := length_lt_of_afterLineEnd? ended
  have blanks := length_dropWhile_le isBlank text
  have breaks := length_skipBreaks_le after
  simp only [skipBlanks] at shorter
  rw [← same]
  omega

/-- Take the rest of a basic string in triple quotes. -/
def longBasicRest (text : List Char) : Option (List Char × List Char) :=
  match text with
  | [] => none
  | '"' :: '"' :: '"' :: rest => some (quotesBefore '"' rest)
  | '"' :: rest =>
      (longBasicRest rest).map fun scanned => ('"' :: scanned.1, scanned.2)
  | '\r' :: '\n' :: rest =>
      (longBasicRest rest).map fun scanned => ('\n' :: scanned.1, scanned.2)
  | '\\' :: rest =>
      match continued : afterContinuation? rest with
      | some after =>
          have := length_lt_of_afterContinuation? continued
          longBasicRest after
      | none =>
          match taken : escape? rest with
          | none => none
          | some (char, after) =>
              have := length_lt_of_escape? taken
              (longBasicRest after).map fun scanned =>
                (char :: scanned.1, scanned.2)
  | char :: rest =>
      if isBasicChar char || char = '\n' then
        (longBasicRest rest).map fun scanned => (char :: scanned.1, scanned.2)
      else
        none
termination_by text.length

/-- Take the rest of a literal string in triple quotes. -/
def longLiteralRest : Scan (List Char)
  | [] => none
  | '\x27' :: '\x27' :: '\x27' :: rest => some (quotesBefore '\x27' rest)
  | '\x27' :: rest =>
      (longLiteralRest rest).map fun scanned => ('\x27' :: scanned.1, scanned.2)
  | '\r' :: '\n' :: rest =>
      (longLiteralRest rest).map fun scanned => ('\n' :: scanned.1, scanned.2)
  | char :: rest =>
      if isLiteralChar char || char = '\n' then
        (longLiteralRest rest).map fun scanned =>
          (char :: scanned.1, scanned.2)
      else
        none

/-- The text without a line end in front. -/
def dropLineEnd (text : List Char) : List Char :=
  (afterLineEnd? text).getD text

/-- Take a string of any form, given at its opening quote. -/
def quoted? : Scan (List Char)
  | '"' :: '"' :: '"' :: rest => longBasicRest (dropLineEnd rest)
  | '"' :: rest => basicRest rest
  | '\x27' :: '\x27' :: '\x27' :: rest => longLiteralRest (dropLineEnd rest)
  | '\x27' :: rest => literalRest rest
  | _ => none

end Toml

end Reply
