import Mathlib
import Reply.Proofs.Registry
import Reply.Proofs.Toml.Scalar
import Reply.Toml.Document

namespace Reply.Toml

/-!
# Documents read back

A document of tables with scalar entries may be laid out in many ways: with blanks
around keys and values, with comments, with lines that say nothing.  However it is laid
out, it is read as these tables with these entries, in their order.
-/

/-! ## Lines -/

/-- Blanks, as many as there are. -/
def Blank (text : List Char) : Prop :=
  ∀ char ∈ text, isBlank char = true

/-- A key without quotes. -/
structure Bare (word : List Char) : Prop where
  nonempty : word ≠ []
  letters : ∀ char ∈ word, isKeyChar char = true

/-- The ways to break a line. -/
inductive Break : List Char → Prop
  | feed : Break ['\n']
  | carriage : Break ['\r', '\n']

/-- What may end a line: blanks, a comment if there is one, and the break. -/
inductive LineEnd : List Char → Prop
  | plain
      {text : List Char}
      (breaks : Break text) :
      LineEnd text
  | comment
      {remark text : List Char}
      (remarks : ∀ char ∈ remark, isCommentChar char = true)
      (breaks : Break text) :
      LineEnd ('#' :: (remark ++ text))
  | blank
      {char : Char}
      {text : List Char}
      (blank : isBlank char = true)
      (ends : LineEnd text) :
      LineEnd (char :: text)

/-- The ways to write a line that opens a table or makes an entry. -/
inductive LineForm : Line → List Char → Prop
  | table
      {name : String}
      {indent before after close : List Char}
      (indents : Blank indent)
      (leads : Blank before)
      (bare : Bare name.toList)
      (trails : Blank after)
      (closes : LineEnd close) :
      LineForm (.table ([], name))
        (indent ++ '[' :: (before ++ (name.toList ++ (after ++ ']' :: close))))
  | entry
      {key : String}
      {value : Value}
      {indent before after form close : List Char}
      (indents : Blank indent)
      (bare : Bare key.toList)
      (leads : Blank before)
      (trails : Blank after)
      (writes : Writes value form)
      (closes : LineEnd close) :
      LineForm (.entry ([], key) value)
        (indent ++
          (key.toList ++ (before ++ '=' :: (after ++ (form ++ close)))))

/-- The ways to write lines, with others between them that say nothing. -/
inductive Lays : List Line → List Char → Prop
  | nil : Lays [] []
  | idle
      {lines : List Line}
      {form text : List Char}
      (ends : LineEnd form)
      (later : Lays lines text) :
      Lays lines (form ++ text)
  | cons
      {line : Line}
      {lines : List Line}
      {form text : List Char}
      (first : LineForm line form)
      (later : Lays lines text) :
      Lays (line :: lines) (form ++ text)

/-! ## Blanks and line ends -/

theorem skipBlanks_append
    {blanks : List Char}
    (blank : Blank blanks)
    (text : List Char) :
    skipBlanks (blanks ++ text) = skipBlanks text :=
  List.dropWhile_append_of_pos blank

theorem skipBlanks_cons
    {char : Char}
    (notBlank : isBlank char = false)
    (text : List Char) :
    skipBlanks (char :: text) = char :: text :=
  List.dropWhile_cons_of_neg (Bool.eq_false_iff.mp notBlank)

/-- A line may end where it is said to. -/
theorem afterLine?_lineEnd
    {form : List Char}
    (ends : LineEnd form)
    (rest : List Char) :
    afterLine? (form ++ rest) = some rest := by
  induction ends with
  | plain breaks => cases breaks <;> rfl
  | @comment remark text remarks breaks =>
      have skipped :
          skipComment (skipBlanks ('#' :: (remark ++ text) ++ rest)) =
            text ++ rest := by
        rw [List.cons_append, skipBlanks_cons rfl, List.append_assoc]
        refine (List.dropWhile_append_of_pos remarks).trans ?_
        cases breaks <;> rfl
      rw [afterLine?, skipped]
      cases breaks <;> rfl
  | @blank char text blank ends inductionHypothesis =>
      have skipped : skipBlanks (char :: text ++ rest) = skipBlanks (text ++ rest) :=
        List.dropWhile_cons_of_pos blank
      rw [← inductionHypothesis, afterLine?, afterLine?, skipped]

/-- What ends a line parts a scalar from the next line. -/
theorem LineEnd.parted
    {form : List Char}
    (ends : LineEnd form)
    (rest : List Char) :
    Parted (form ++ rest) := by
  cases ends with
  | plain breaks => cases breaks <;> exact .cons (by decide) _
  | comment => exact .cons (by decide) _
  | @blank char text blank ends =>
      refine .cons ?_ _
      simp only [isBlank, Bool.or_eq_true, decide_eq_true_eq] at blank
      rcases blank with rfl | rfl <;> decide

theorem afterLine?_skipBlanks (text : List Char) :
    afterLine? (skipBlanks text) = afterLine? text := by
  have again : skipBlanks (skipBlanks text) = skipBlanks text :=
    List.dropWhile_idempotent _ _
  rw [afterLine?, again, ← afterLine?]

/-- A line that says nothing is read as such. -/
theorem line?_lineEnd
    {form : List Char}
    (ends : LineEnd form)
    (rest : List Char) :
    line? (form ++ rest) = some (.nothing, rest) := by
  have idle : ending .nothing (skipBlanks (form ++ rest)) = some (.nothing, rest) := by
    rw [ending, afterLine?_skipBlanks, afterLine?_lineEnd ends]
    rfl
  have noBracket : ∀ more, skipBlanks (form ++ rest) ≠ '[' :: more := by
    intro more same
    rw [same] at idle
    contradiction
  unfold line?
  split
  · next same => exact absurd same (noBracket _)
  · next same => exact absurd same (noBracket _)
  · rw [idle]

/-! ## Keys -/

section

variable
    {word before after : List Char}
    (bare : Bare word)
    (leads : Blank before)
    (trails : Blank after)

include bare

/-- A key without quotes is no blank, no quote, no bracket and no comment. -/
theorem exists_cons_of_bare :
    ∃ first rest,
      word = first :: rest ∧
        isBlank first = false ∧
        first ∉ ['"', '\x27', '[', '#', '\n', '\r'] := by
  obtain ⟨first, rest, rfl⟩ := List.exists_cons_of_ne_nil bare.nonempty
  have isKey := bare.letters first List.mem_cons_self
  have other : ∀ {mark : Char}, isKeyChar mark = false → first ≠ mark := by
    rintro mark noKey rfl
    exact Bool.false_ne_true (noKey.symm.trans isKey)
  have notSpace : first ≠ ' ' := other rfl
  have notTab : first ≠ '\t' := other rfl
  refine ⟨first, rest, rfl, by simp [isBlank, notSpace, notTab], ?_⟩
  simp only [List.mem_cons, List.not_mem_nil, or_false, not_or]
  exact ⟨other rfl, other rfl, other rfl, other rfl, other rfl, other rfl⟩

/-- A key without quotes is taken up to a character that is none of it. -/
theorem keyPart?_bare
    {next : Char}
    (noKeyChar : isKeyChar next = false)
    (rest : List Char) :
    keyPart? (word ++ next :: rest) = some (String.ofList word, next :: rest) := by
  have noKey := Bool.eq_false_iff.mp noKeyChar
  have taken : (word ++ next :: rest).takeWhile isKeyChar = word := by
    rw [List.takeWhile_append_of_pos bare.letters,
      List.takeWhile_cons_of_neg noKey, List.append_nil]
  have left : (word ++ next :: rest).dropWhile isKeyChar = next :: rest := by
    rw [List.dropWhile_append_of_pos bare.letters,
      List.dropWhile_cons_of_neg noKey]
  have present : word.isEmpty = false := by
    rw [List.isEmpty_eq_false_iff]
    exact bare.nonempty
  obtain ⟨first, others, same, -, notListed⟩ := exists_cons_of_bare bare
  simp only [List.mem_cons, List.not_mem_nil, or_false, not_or] at notListed
  obtain ⟨notQuote, notTick, -⟩ := notListed
  rw [keyPart?.eq_def]
  split
  · next quoted =>
      rw [same] at quoted
      exact absurd (List.cons.inj quoted).1 notQuote
  · next quoted =>
      rw [same] at quoted
      exact absurd (List.cons.inj quoted).1 notTick
  · simp only [taken, left, present, Bool.false_eq_true, if_false]

include leads trails

/-- A key is taken with the blanks around it. -/
theorem key?_bare
    {next : Char}
    (noKeyChar : isKeyChar next = false)
    (noBlank : isBlank next = false)
    (noPoint : next ≠ '.')
    (rest : List Char) :
    key? (before ++ (word ++ (after ++ next :: rest))) =
      some (([], String.ofList word), next :: rest) := by
  obtain ⟨first, others, same, notBlank, -⟩ := exists_cons_of_bare bare
  have spaced :
      spacedKeyPart? (before ++ (word ++ (after ++ next :: rest))) =
        some (String.ofList word, next :: rest) := by
    have led :
        skipBlanks (before ++ (word ++ (after ++ next :: rest))) =
          word ++ (after ++ next :: rest) := by
      rw [skipBlanks_append leads, same]
      exact skipBlanks_cons notBlank _
    have part :
        keyPart? (word ++ (after ++ next :: rest)) =
          some (String.ofList word, after ++ next :: rest) := by
      cases after with
      | nil => exact keyPart?_bare bare noKeyChar rest
      | cons blank more =>
          have isBlank := trails blank List.mem_cons_self
          refine keyPart?_bare bare ?_ _
          simp only [Toml.isBlank, Bool.or_eq_true, decide_eq_true_eq] at isBlank
          rcases isBlank with rfl | rfl <;> decide
    rw [spacedKeyPart?, led, part, Option.map_some, skipBlanks_append trails,
      skipBlanks_cons noBlank]
  have alone :
      separated spacedKeyPart? '.' (before ++ (word ++ (after ++ next :: rest))) =
        some ([String.ofList word], next :: rest) := by
    have noMore : expect? '.' (next :: rest) = none := if_neg noPoint
    rw [separated, spaced]
    simp only [noMore]
  rw [key?, alone]
  rfl

end

/-! ## Lines -/

/-- No bracket follows the one that opens a table. -/
theorem ne_bracket_of_bare
    {before word : List Char}
    (leads : Blank before)
    (bare : Bare word)
    (rest more : List Char) :
    before ++ (word ++ rest) ≠ '[' :: more := by
  cases before with
  | nil =>
      obtain ⟨first, others, rfl, -, notListed⟩ := exists_cons_of_bare bare
      intro same
      rw [(List.cons.inj same).1] at notListed
      exact notListed (by decide)
  | cons blank others =>
      intro same
      have isBlank := leads blank List.mem_cons_self
      rw [(List.cons.inj same).1] at isBlank
      contradiction

/-- A line that begins with a key says something. -/
theorem afterLine?_bare
    {word : List Char}
    (bare : Bare word)
    (rest : List Char) :
    afterLine? (word ++ rest) = none := by
  obtain ⟨first, others, rfl, notBlank, notListed⟩ := exists_cons_of_bare bare
  simp only [List.mem_cons, List.not_mem_nil, or_false, not_or] at notListed
  obtain ⟨-, -, -, notHash, notFeed, notReturn⟩ := notListed
  have kept : skipComment (first :: (others ++ rest)) = first :: (others ++ rest) := by
    unfold skipComment
    split
    · next same => exact absurd (List.cons.inj same).1 notHash
    · rfl
  rw [afterLine?, List.cons_append, skipBlanks_cons notBlank, kept]
  unfold afterLineEnd?
  simp only
  split
  · next same => exact absurd (List.cons.inj same).1 notFeed
  · next same => exact absurd (List.cons.inj same).1 notReturn
  · rfl

/-- The line of a header opens its table. -/
theorem line?_table
    {before word after close : List Char}
    (leads : Blank before)
    (bare : Bare word)
    (trails : Blank after)
    (closes : LineEnd close)
    (rest : List Char) :
    line? ('[' :: (before ++ (word ++ (after ++ ']' :: (close ++ rest))))) =
      some (.table ([], String.ofList word), rest) := by
  have key :
      key? (before ++ (word ++ (after ++ ']' :: (close ++ rest)))) =
        some (([], String.ofList word), ']' :: (close ++ rest)) :=
    key?_bare bare leads trails rfl rfl (by decide) _
  have closed : expect? ']' (']' :: (close ++ rest)) = some (close ++ rest) :=
    rfl
  rw [line?, skipBlanks_cons rfl]
  split
  · next same =>
      exact absurd (List.cons.inj same).2 (ne_bracket_of_bare leads bare _ _)
  · next same =>
      obtain ⟨-, rfl⟩ := List.cons.inj same
      simp only [key, closed, Option.bind_eq_bind, Option.bind_some, ending,
        afterLine?_lineEnd closes, Option.map_some]
  · next none => exact absurd rfl (none _)

/-- An entry is taken up to the end of its line. -/
theorem binding?_entry
    {word before after form close : List Char}
    {value : Value}
    (bare : Bare word)
    (leads : Blank before)
    (trails : Blank after)
    (writes : Writes value form)
    (closes : LineEnd close)
    (rest : List Char) :
    binding? (value? (nestingLimit - 1))
        (word ++ (before ++ '=' :: (after ++ (form ++ (close ++ rest))))) =
      some ((([], String.ofList word), value), skipBlanks (close ++ rest)) := by
  have key :
      key? (word ++ (before ++ '=' :: (after ++ (form ++ (close ++ rest))))) =
        some
          (([], String.ofList word),
            '=' :: (after ++ (form ++ (close ++ rest)))) :=
    key?_bare bare (List.forall_mem_nil _) leads rfl rfl (by decide) _
  have bound :
      expect? '=' ('=' :: (after ++ (form ++ (close ++ rest)))) =
        some (after ++ (form ++ (close ++ rest))) :=
    rfl
  have led :
      skipBlanks (after ++ (form ++ (close ++ rest))) =
        form ++ (close ++ rest) := by
    obtain ⟨mark, more, rfl, notMark⟩ := writes.exists_cons
    simp only [List.mem_cons, List.not_mem_nil, or_false, not_or] at notMark
    obtain ⟨-, -, notSpace, notTab⟩ := notMark
    rw [skipBlanks_append trails]
    exact skipBlanks_cons (by simp [isBlank, notSpace, notTab]) _
  have taken := value?_writes writes (closes.parted rest) (nestingLimit - 1)
  simp only [binding?, key, bound, led, taken, Option.bind_eq_bind,
    Option.bind_some]

/-- The line of an entry makes it. -/
theorem line?_entry
    {word before after form close : List Char}
    {value : Value}
    (bare : Bare word)
    (leads : Blank before)
    (trails : Blank after)
    (writes : Writes value form)
    (closes : LineEnd close)
    (rest : List Char) :
    line? (word ++ (before ++ '=' :: (after ++ (form ++ (close ++ rest))))) =
      some (.entry ([], String.ofList word) value, rest) := by
  obtain ⟨first, others, same, notBlank, notListed⟩ := exists_cons_of_bare bare
  simp only [List.mem_cons, List.not_mem_nil, or_false, not_or] at notListed
  have notBracket : first ≠ '[' := notListed.2.2.1
  have start : ∀ more, skipBlanks (word ++ more) = word ++ more := by
    intro more
    rw [same]
    exact skipBlanks_cons notBlank _
  have bracketless : ∀ more left, word ++ more ≠ '[' :: left := by
    intro more left bracket
    rw [same] at bracket
    exact notBracket (List.cons.inj bracket).1
  have something : ∀ more, ending .nothing (word ++ more) = none := by
    intro more
    rw [ending, afterLine?_bare bare]
    rfl
  rw [line?, start]
  split
  · next bracket => exact absurd bracket (bracketless _ _)
  · next bracket => exact absurd bracket (bracketless _ _)
  · rw [something]
    simp only [binding?_entry bare leads trails writes closes,
      Option.bind_eq_bind, Option.bind_some, ending, afterLine?_skipBlanks,
      afterLine?_lineEnd closes, Option.map_some]

/-- A line is read as what it asks for, whatever follows. -/
theorem line?_lineForm
    {line : Line}
    {form : List Char}
    (written : LineForm line form)
    (rest : List Char) :
    line? (form ++ rest) = some (line, rest) := by
  have indented :
      ∀ {blanks : List Char},
        Blank blanks → ∀ text, line? (blanks ++ text) = line? text := by
    intro blanks blank text
    rw [line?, line?, skipBlanks_append blank]
  cases written with
  | table indents leads bare trails closes =>
      simp only [List.append_assoc, List.cons_append, indented indents]
      rw [line?_table leads bare trails closes, String.ofList_toList]
  | entry indents bare leads trails writes closes =>
      simp only [List.append_assoc, List.cons_append, indented indents]
      rw [line?_entry bare leads trails writes closes, String.ofList_toList]

/-! ## Texts -/

theorem LineEnd.ne_nil {form : List Char} (ends : LineEnd form) : form ≠ [] := by
  cases ends with
  | plain breaks => cases breaks <;> exact List.cons_ne_nil _ _
  | comment | blank => exact List.cons_ne_nil _ _

theorem LineForm.ne_nil
    {line : Line}
    {form : List Char}
    (written : LineForm line form) :
    form ≠ [] := by
  cases written with
  | table => simp
  | entry => simp

/-- Lines that do the same to every draft. -/
def SameLines (first second : List Line) : Prop :=
  ∀ draft : Draft,
    first.foldlM Draft.follow? draft = second.foldlM Draft.follow? draft

theorem all_line?_nil : all line? [] = some [.nothing] := by
  rw [all]
  rfl

/-- One more line in front is read and followed first. -/
theorem exists_all_append
    {line : Line}
    {form text : List Char}
    {scanned : List Line}
    (nonempty : form ≠ [])
    (first : ∀ rest, line? (form ++ rest) = some (line, rest))
    (later : all line? text = some scanned) :
    ∃ lines,
      all line? (form ++ text) = some lines ∧
        SameLines lines (line :: scanned) := by
  have taken := first text
  cases text with
  | nil =>
      -- Where nothing follows, no idle line is read, which would change nothing.
      obtain rfl : [.nothing] = scanned :=
        Option.some.inj (all_line?_nil.symm.trans later)
      refine ⟨[line], ?_, fun draft => ?_⟩
      · rw [all, taken]
      · simp only [List.foldlM_cons, List.foldlM_nil]
        rfl
  | cons next rest =>
      have shorter :
          (next :: rest).length < (form ++ next :: rest).length := by
        have := List.length_pos_of_ne_nil nonempty
        rw [List.length_append]
        omega
      refine ⟨line :: scanned, ?_, fun _ => rfl⟩
      rw [all, taken]
      simp only [if_pos shorter, later, Option.map_some]

/-- A text is read as lines that do what it lays out. -/
theorem exists_all_of_lays
    {lines : List Line}
    {text : List Char}
    (lays : Lays lines text) :
    ∃ scanned, all line? text = some scanned ∧ SameLines scanned lines := by
  induction lays with
  | nil => exact ⟨_, all_line?_nil, fun _ => rfl⟩
  | @idle lines form text ends later inductionHypothesis =>
      obtain ⟨scanned, read, same⟩ := inductionHypothesis
      obtain ⟨more, readMore, sameMore⟩ :=
        exists_all_append ends.ne_nil (line?_lineEnd ends) read
      exact ⟨more, readMore, fun draft => (sameMore draft).trans (same draft)⟩
  | @cons line lines form text first later inductionHypothesis =>
      obtain ⟨scanned, read, same⟩ := inductionHypothesis
      obtain ⟨more, readMore, sameMore⟩ :=
        exists_all_append first.ne_nil (line?_lineForm first) read
      refine ⟨more, readMore, fun draft => (sameMore draft).trans ?_⟩
      rw [List.foldlM_cons, List.foldlM_cons]
      exact bind_congr same

/-! ## Tables -/

/-- A table of a document: its name, and its entries in their order. -/
abbrev Listing :=
  String × List (String × Value)

/-- The document that consists of tables. -/
def rootOf (tables : List Listing) : List (String × Value) :=
  tables.map fun table => (table.1, .table table.2)

/-- The lines of tables: the header of each and its entries. -/
def linesOf (tables : List Listing) : List Line :=
  tables.flatMap fun table =>
    .table ([], table.1) :: table.2.map fun entry => .entry ([], entry.1) entry.2

/-- Entries as they are held while a document is read. -/
def nodesOf (entries : List (String × Value)) : Entries :=
  entries.map fun entry => (entry.1, .value entry.2)

/-- A table as it is held while a document is read. -/
def Listing.node (table : Listing) : String × Node :=
  (table.1, .table .defined (nodesOf table.2))

theorem map_fst_nodesOf (entries : List (String × Value)) :
    (nodesOf entries).map Prod.fst = entries.map Prod.fst := by
  rw [nodesOf, List.map_map]
  rfl

/-- Under a new key nothing is found, and it is placed at the end. -/
theorem define_of_not_mem
    {done : List (String × Value)}
    {key : String}
    (new : key ∉ done.map Prod.fst)
    (value : Value) :
    Entries.define key value [] true (nodesOf done) =
      some (nodesOf (done ++ [(key, value)])) := by
  rw [← map_fst_nodesOf] at new
  have absent := Registry.find?_append_of_not_mem new []
  have placed := Registry.place_append_of_not_mem new (.value value) []
  rw [List.append_nil] at absent placed
  rw [Entries.define, if_pos rfl, Entries.bind?, absent]
  simp only [Registry.find?, placed]
  rw [nodesOf, nodesOf, List.map_append]
  rfl

section

variable
    {root : Entries}
    {name : String}
    (new : name ∉ root.map Prod.fst)

include new

/-- An entry with a new key goes to the table that was opened last. -/
theorem follow?_entry
    {done : List (String × Value)}
    {key : String}
    (newKey : key ∉ done.map Prod.fst)
    (value : Value) :
    Draft.follow? ⟨root ++ [Listing.node (name, done)], [name]⟩
        (.entry ([], key) value) =
      some ⟨root ++ [Listing.node (name, done ++ [(key, value)])], [name]⟩ := by
  have found :
      Registry.find? name (root ++ [Listing.node (name, done)]) =
        some (.table .defined (nodesOf done)) :=
    (Registry.find?_append_of_not_mem new _).trans (if_pos rfl)
  have placed :
      ∀ node,
        Registry.place name node (root ++ [Listing.node (name, done)]) =
          root ++ [(name, node)] := by
    intro node
    rw [Registry.place_append_of_not_mem new]
    exact congrArg (root ++ ·) (if_pos rfl)
  simp only [Draft.follow?, Entries.atPath, found, define_of_not_mem newKey,
    placed, Option.bind_eq_bind, Option.bind_some]
  rfl

/-- Entries with new keys go to the table that was opened last. -/
theorem foldlM_entries
    (entries : List (String × Value))
    (done : List (String × Value))
    (distinct : ((done ++ entries).map Prod.fst).Nodup) :
    (entries.map fun entry => Line.entry ([], entry.1) entry.2).foldlM
        Draft.follow? ⟨root ++ [Listing.node (name, done)], [name]⟩ =
      some ⟨root ++ [Listing.node (name, done ++ entries)], [name]⟩ := by
  induction entries generalizing done with
  | nil =>
      rw [List.append_nil]
      rfl
  | cons entry rest inductionHypothesis =>
      rcases entry with ⟨key, value⟩
      have newKey : key ∉ done.map Prod.fst := by
        intro member
        rw [List.map_append] at distinct
        exact
          List.disjoint_of_nodup_append distinct member List.mem_cons_self
      rw [List.append_cons] at distinct
      rw [List.append_cons done, List.map_cons, List.foldlM_cons,
        follow?_entry new newKey]
      exact inductionHypothesis (done ++ [(key, value)]) distinct

/-- The header of a new table opens it, and its entries go there. -/
theorem foldlM_table
    {entries : List (String × Value)}
    (distinct : (entries.map Prod.fst).Nodup)
    (path : List String) :
    (linesOf [(name, entries)]).foldlM Draft.follow? ⟨root, path⟩ =
      some ⟨root ++ [Listing.node (name, entries)], [name]⟩ := by
  have absent := Registry.find?_append_of_not_mem new []
  have placed := Registry.place_append_of_not_mem new (.table .defined []) []
  rw [List.append_nil] at absent placed
  have opened :
      Draft.follow? ⟨root, path⟩ (.table ([], name)) =
        some ⟨root ++ [Listing.node (name, [])], [name]⟩ := by
    simp only [Draft.follow?, Entries.atPath, Entries.openTable, absent,
      Registry.find?, placed, Option.bind_eq_bind, Option.bind_some]
    rfl
  rw [linesOf, List.flatMap_singleton, List.foldlM_cons, opened]
  exact foldlM_entries new entries [] distinct

end

/-- Tables with distinct names are added one after the other. -/
theorem foldlM_tables
    (tables : List Listing)
    (done : List Listing)
    (path : List String)
    (distinct : ((done ++ tables).map Prod.fst).Nodup)
    (entriesDistinct : ∀ table ∈ tables, (table.2.map Prod.fst).Nodup) :
    ∃ last,
      (linesOf tables).foldlM Draft.follow? ⟨done.map Listing.node, path⟩ =
        some ⟨(done ++ tables).map Listing.node, last⟩ := by
  induction tables generalizing done path with
  | nil => exact ⟨path, by rw [List.append_nil]; rfl⟩
  | cons table rest inductionHypothesis =>
      rcases table with ⟨name, entries⟩
      obtain ⟨entriesHere, later⟩ := List.forall_mem_cons.mp entriesDistinct
      have new : name ∉ (done.map Listing.node).map Prod.fst := by
        intro member
        rw [List.map_map] at member
        rw [List.map_append] at distinct
        exact
          List.disjoint_of_nodup_append distinct member List.mem_cons_self
      rw [List.append_cons] at distinct ⊢
      obtain ⟨last, followed⟩ :=
        inductionHypothesis (done ++ [(name, entries)]) [name] distinct later
      refine ⟨last, ?_⟩
      have parted : linesOf ((name, entries) :: rest) =
          linesOf [(name, entries)] ++ linesOf rest := by
        rw [linesOf, linesOf, linesOf, List.flatMap_singleton]
        rfl
      rw [parted, List.foldlM_append, foldlM_table new entriesHere,
        ← followed, List.map_append]
      rfl

/-- What is held while a document is read becomes the tables. -/
theorem finishEntries_nodes (tables : List Listing) :
    finishEntries (tables.map Listing.node) = rootOf tables := by
  have values :
      ∀ entries : List (String × Value),
        finishEntries (nodesOf entries) = entries := by
    intro entries
    induction entries with
    | nil => rfl
    | cons entry rest inductionHypothesis =>
        rw [nodesOf, List.map_cons, finishEntries, Node.finish]
        exact congrArg (entry :: ·) inductionHypothesis
  induction tables with
  | nil => rfl
  | cons table rest inductionHypothesis =>
      rw [rootOf, List.map_cons, List.map_cons, Listing.node, finishEntries,
        Node.finish, values, inductionHypothesis]
      rfl

/-- A byte order mark says nothing. -/
theorem line?_mark (rest : List Char) : line? ('\ufeff' :: rest) = none := by
  have part : spacedKeyPart? ('\ufeff' :: rest) = none := rfl
  have key : key? ('\ufeff' :: rest) = none := by
    rw [key?, separated, part]
    rfl
  have idle : ending .nothing ('\ufeff' :: rest) = none := rfl
  rw [line?, skipBlanks_cons rfl]
  split
  · next same => exact absurd (List.cons.inj same).1 (by decide)
  · next same => exact absurd (List.cons.inj same).1 (by decide)
  · rw [idle]
    simp only [binding?, key]
    rfl

/-- A document does not begin with a byte order mark. -/
theorem dropMark_of_lays
    {lines : List Line}
    {text : List Char}
    (lays : Lays lines text) :
    dropMark text = text := by
  obtain ⟨scanned, read, -⟩ := exists_all_of_lays lays
  unfold dropMark
  split
  · next rest =>
      rw [all, line?_mark] at read
      contradiction
  · rfl

/-- However tables are laid out, they are read as they are. -/
theorem read?_of_lays
    {tables : List Listing}
    {text : List Char}
    (distinct : (tables.map Prod.fst).Nodup)
    (entriesDistinct : ∀ table ∈ tables, (table.2.map Prod.fst).Nodup)
    (lays : Lays (linesOf tables) text) :
    read? (String.ofList text) = some (rootOf tables) := by
  obtain ⟨scanned, read, same⟩ := exists_all_of_lays lays
  obtain ⟨last, followed⟩ :=
    foldlM_tables tables [] [] distinct entriesDistinct
  have drafted := (same .empty).trans followed
  rw [read?, String.toList_ofList, dropMark_of_lays lays, read]
  simp only [Option.bind_eq_bind, Option.bind_some, drafted, List.nil_append,
    finishEntries_nodes]

/-! ## Every document can be laid out -/

/-- Lines that can be written can be written one after the other. -/
theorem exists_lays_of_forms
    {lines : List Line}
    (forms : ∀ line ∈ lines, ∃ form, LineForm line form) :
    ∃ text, Lays lines text := by
  induction lines with
  | nil => exact ⟨[], .nil⟩
  | cons line rest inductionHypothesis =>
      obtain ⟨⟨form, first⟩, later⟩ := List.forall_mem_cons.mp forms
      obtain ⟨text, lays⟩ := inductionHypothesis later
      exact ⟨_, .cons first lays⟩

/-- Tables whose names, keys and values can be written can be laid out. -/
theorem exists_lays
    {tables : List Listing}
    (named : ∀ table ∈ tables, Bare table.1.toList)
    (keyed : ∀ table ∈ tables, ∀ entry ∈ table.2, Bare entry.1.toList)
    (valued :
      ∀ table ∈ tables, ∀ entry ∈ table.2, ∃ form, Writes entry.2 form) :
    ∃ text, Lays (linesOf tables) text := by
  apply exists_lays_of_forms
  have unspaced : Blank [] := List.forall_mem_nil _
  intro line member
  obtain ⟨table, listed, isLine⟩ := List.mem_flatMap.mp member
  rcases List.mem_cons.mp isLine with rfl | isEntry
  · exact
      ⟨_, .table unspaced unspaced (named table listed) unspaced
        (.plain .feed)⟩
  · obtain ⟨entry, entered, rfl⟩ := List.mem_map.mp isEntry
    obtain ⟨written, writes⟩ := valued table listed entry entered
    exact
      ⟨_, .entry unspaced (keyed table listed entry entered) unspaced unspaced
        writes (.plain .feed)⟩

end Reply.Toml
