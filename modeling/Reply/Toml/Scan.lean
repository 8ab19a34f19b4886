namespace Reply

/-!
# Scanning TOML text

A scanner takes a value off the front of a text and leaves the rest.  This
module has the ground between values: blanks, line ends, comments and
separated repetition.
-/

namespace Toml

/-- Take a value off the front of a text. -/
abbrev Scan (α : Type) :=
  List Char → Option (α × List Char)

/-- A space or a tab. -/
def isBlank (char : Char) : Bool :=
  char = ' ' || char = '\t'

/-- A character beyond ASCII. -/
def isBeyondAscii (char : Char) : Bool :=
  0x80 ≤ char.toNat

/-- A character that may stand in a comment. -/
def isCommentChar (char : Char) : Bool :=
  char = '\t' || (' ' ≤ char && char ≤ '~') || isBeyondAscii char

/-- The text after the blanks in front. -/
def skipBlanks (text : List Char) : List Char :=
  text.dropWhile isBlank

/-- The text after a line end. -/
def afterLineEnd? : List Char → Option (List Char)
  | '\n' :: rest => some rest
  | '\r' :: '\n' :: rest => some rest
  | _ => none

/-- The text after a comment, if there is one. -/
def skipComment : List Char → List Char
  | '#' :: rest => rest.dropWhile isCommentChar
  | text => text

/-- The text after what may follow on a line: blanks, a comment, the end. -/
def afterLine? (text : List Char) : Option (List Char) :=
  match skipComment (skipBlanks text) with
  | [] => some []
  | rest => afterLineEnd? rest

/-- The text after blanks and line ends. -/
def skipBreaks : List Char → List Char
  | '\r' :: '\n' :: rest => skipBreaks rest
  | char :: rest =>
      if isBlank char || char = '\n' then skipBreaks rest else char :: rest
  | [] => []

theorem length_dropWhile_le
    (drops : Char → Bool)
    (text : List Char) :
    (text.dropWhile drops).length ≤ text.length :=
  (List.dropWhile_sublist drops).length_le

/-- The text after blanks, line ends and comments. -/
def skipFiller : List Char → List Char
  | '#' :: rest => skipFiller (rest.dropWhile isCommentChar)
  | '\r' :: '\n' :: rest => skipFiller rest
  | char :: rest =>
      if isBlank char || char = '\n' then skipFiller rest else char :: rest
  | [] => []
termination_by text => text.length
decreasing_by
  · exact Nat.lt_succ_of_le (length_dropWhile_le ..)
  · simp only [List.length_cons]
    omega
  · exact Nat.lt_succ_self _

/-- Take one given character. -/
def expect? (char : Char) : List Char → Option (List Char)
  | first :: rest => if first = char then some rest else none
  | [] => none

/-- Take a given run of characters. -/
def expectAll? : List Char → List Char → Option (List Char)
  | [], text => some text
  | char :: more, text => (expect? char text).bind (expectAll? more)

/--
Take items with a mark between them, at least one.

Where no item follows a mark, the repetition ends before the mark.
-/
def separated
    (item : Scan α)
    (mark : Char)
    (text : List Char) :
    Option (List α × List Char) :=
  match item text with
  | none => none
  | some (first, rest) =>
      match expect? mark rest with
      | none => some ([first], rest)
      | some more =>
          if more.length < text.length then
            match separated item mark more with
            | some (others, left) => some (first :: others, left)
            | none => some ([first], rest)
          else
            some ([first], rest)
termination_by text.length

/-- Take items until nothing is left. -/
def all (item : Scan α) (text : List Char) : Option (List α) :=
  match item text with
  | none => none
  | some (first, []) => some [first]
  | some (first, next :: rest) =>
      if (next :: rest).length < text.length then
        (all item (next :: rest)).map (first :: ·)
      else
        none
termination_by text.length

end Toml

end Reply
