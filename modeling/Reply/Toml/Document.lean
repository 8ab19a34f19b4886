import Reply.Toml.Entry

namespace Reply

/-!
# TOML documents

A document is a run of lines: headers, entries, and lines with nothing on them.
A header opens a table, and the entries after it go there.
-/

namespace Toml

/-- What a line of a document asks for. -/
inductive Line
  | nothing
  | table (key : Key)
  | element (key : Key)
  | entry (key : Key) (value : Value)

/-- Take the rest of a line, given what it asks for. -/
def ending (line : Line) (text : List Char) : Option (Line × List Char) :=
  (afterLine? text).map (line, ·)

/-- Take one line; only values reach over several. -/
def line? (text : List Char) : Option (Line × List Char) :=
  match skipBlanks text with
  | '[' :: '[' :: rest => do
      let (key, rest) ← key? rest
      let rest ← expectAll? [']', ']'] rest
      ending (.element key) rest
  | '[' :: rest => do
      let (key, rest) ← key? rest
      let rest ← expect? ']' rest
      ending (.table key) rest
  | start =>
      match ending .nothing start with
      | some taken => some taken
      | none => do
          let ((key, value), rest) ← binding? (value? (nestingLimit - 1)) start
          ending (.entry key value) rest

/-- A document read so far, and the path of the table it is in. -/
structure Draft where
  root : Entries
  path : List String

namespace Draft

/-- The document before its first line. -/
def empty : Draft :=
  ⟨[], []⟩

/-- Do what a line asks for. -/
def follow? (draft : Draft) : Line → Option Draft
  | .nothing => some draft
  | .table key => do
      let root ← Entries.atPath (Entries.openTable key.2) key.1 draft.root
      some ⟨root, key.1 ++ [key.2]⟩
  | .element key => do
      let root ← Entries.atPath (Entries.openElement key.2) key.1 draft.root
      some ⟨root, key.1 ++ [key.2]⟩
  | .entry key value => do
      let root ←
        Entries.atPath (Entries.define key.2 value key.1 true)
          draft.path draft.root
      some { draft with root := root }

end Draft

/-- The text without a byte order mark in front. -/
def dropMark : List Char → List Char
  | '\ufeff' :: rest => rest
  | text => text

/-- Read a document as the entries of its root table. -/
def read? (text : String) : Option (List (String × Value)) := do
  let lines ← all line? (dropMark text.toList)
  let draft ← lines.foldlM Draft.follow? .empty
  some (finishEntries draft.root)

end Toml

end Reply
