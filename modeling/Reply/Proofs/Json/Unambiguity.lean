import Reply.Proofs.Json.Grammar

namespace Reply

/-!
# No JSON text is ambiguous

Each form of the grammar can be read off whatever follows it.  A run of white space or
of digits ends where another kind of character comes, a string ends at its quote, and
the first character of a value tells its kind.  A numeral alone ends only where no
digit, point or exponent follows: within a text that is always so, because a comma, a
bracket or white space comes after each value.
-/

/-- Whether a payload holds no floating point number, at any depth. -/
inductive Payload.FloatFree : Payload → Prop
  | null : FloatFree .null
  | bool (value : Bool) : FloatFree (.bool value)
  | whole (value : Whole) : FloatFree (.whole value)
  | text (value : String) : FloatFree (.text value)
  | array
      {items : List Payload}
      (each : ∀ item ∈ items, FloatFree item) :
      FloatFree (.array items)
  | object
      {entries : List (String × Payload)}
      (each : ∀ entry ∈ entries, FloatFree entry.2) :
      FloatFree (.object entries)

/-- A number is determined by its value. -/
theorem Whole.eq_of_value
    {number other : Whole}
    (same : number.value = other.value) :
    number = other := by
  rcases number with ⟨value, lower, upper⟩
  rcases other with ⟨otherValue, otherLower, otherUpper⟩
  obtain rfl : value = otherValue := same
  rfl

namespace Json

/-! ## Runs of characters -/

/-- Whether a text goes on with another kind of character, or ends. -/
def Stops (kind : Char → Bool) (text : List Char) : Prop :=
  ∀ char ∈ text.head?, kind char = false

theorem stops_cons
    {kind : Char → Bool}
    {first : Char}
    (otherKind : kind first = false)
    (rest : List Char) :
    Stops kind (first :: rest) := by
  intro char isFirst
  rwa [← Option.some.inj isFirst]

/-- A run of characters of a kind can be read off where the kind stops. -/
theorem run_append_inj
    {kind : Char → Bool}
    {run other rest remaining : List Char}
    (ofKind : ∀ char ∈ run, kind char = true)
    (otherOfKind : ∀ char ∈ other, kind char = true)
    (stops : Stops kind rest)
    (otherStops : Stops kind remaining)
    (same : run ++ rest = other ++ remaining) :
    run = other ∧ rest = remaining := by
  induction run generalizing other with
  | nil =>
      cases other with
      | nil => exact ⟨rfl, same⟩
      | cons first tail =>
          rw [List.nil_append] at same
          have stopped := stops first (by rw [same]; rfl)
          rw [otherOfKind first List.mem_cons_self] at stopped
          contradiction
  | cons first tail inductionHypothesis =>
      cases other with
      | nil =>
          rw [List.nil_append] at same
          have stopped := otherStops first (by rw [← same]; rfl)
          rw [ofKind first List.mem_cons_self] at stopped
          contradiction
      | cons otherFirst otherTail =>
          obtain ⟨firsts, tails⟩ := List.cons.inj same
          obtain ⟨runs, rests⟩ :=
            inductionHypothesis
              (List.forall_mem_cons.mp ofKind).2
              (List.forall_mem_cons.mp otherOfKind).2 tails
          exact ⟨by rw [firsts, runs], rests⟩

/-- Whether a character goes on with a numeral. -/
def goesOn (char : Char) : Bool :=
  char.isDigit || char = '.' || char = 'e' || char = 'E'

/-- Whether a character separates the parts of a container or closes it. -/
def isMark (char : Char) : Bool :=
  char = ',' || char = ']' || char = '}'

theorem isSpace_of_isMark
    {char : Char}
    (mark : isMark char = true) :
    isSpace char = false := by
  simp only [isMark, Bool.or_eq_true, decide_eq_true_eq] at mark
  rcases mark with (rfl | rfl) | rfl <;> decide

theorem goesOn_of_isMark
    {char : Char}
    (mark : isMark char = true) :
    goesOn char = false := by
  simp only [isMark, Bool.or_eq_true, decide_eq_true_eq] at mark
  rcases mark with (rfl | rfl) | rfl <;> decide

theorem goesOn_of_isSpace
    {char : Char}
    (space : isSpace char = true) :
    goesOn char = false := by
  simp only [isSpace, Bool.or_eq_true, decide_eq_true_eq] at space
  rcases space with ((rfl | rfl) | rfl) | rfl <;> decide

/-- No numeral goes on after white space that something else follows. -/
theorem Gap.stops_goesOn_append
    (gap : Gap)
    {rest : List Char}
    (stops : Stops goesOn rest) :
    Stops goesOn (gap.text ++ rest) := by
  rcases gap with ⟨_ | ⟨first, tail⟩, spaces⟩
  · exact stops
  · exact stops_cons (goesOn_of_isSpace (spaces first List.mem_cons_self)) _

/-- What comes after a gap can be read off. -/
theorem Gap.append_inj
    {gap other : Gap}
    {rest remaining : List Char}
    (stops : Stops isSpace rest)
    (otherStops : Stops isSpace remaining)
    (same : gap.text ++ rest = other.text ++ remaining) :
    rest = remaining :=
  (run_append_inj gap.spaces other.spaces stops otherStops same).2

/-! ## Strings -/

/-- A code of four digits can be read off. -/
theorem Coded.append_inj
    {code other : Nat}
    {digits otherDigits rest remaining : List Char}
    (coded : Coded code digits)
    (otherCoded : Coded other otherDigits)
    (same : digits ++ rest = otherDigits ++ remaining) :
    code = other ∧ rest = remaining := by
  obtain ⟨length, read⟩ := coded
  obtain ⟨otherLength, otherRead⟩ := otherCoded
  obtain ⟨rfl, rests⟩ :=
    List.append_inj same (length.trans otherLength.symm)
  exact ⟨Option.some.inj (read.symm.trans otherRead), rests⟩

/-- No character has a code that only ever stands in a pair. -/
theorem not_surrogate (char : Char) :
    ¬(0xd800 ≤ char.toNat ∧ char.toNat < 0xe000) := by
  intro surrogate
  have valid := char.valid
  simp only [UInt32.isValidChar, Nat.isValidChar] at valid
  simp only [Char.toNat] at surrogate
  omega

/-- An escape stands for one character. -/
theorem shortEscapes_functional
    {letter char other : Char}
    (listed : (letter, char) ∈ shortEscapes)
    (otherListed : (letter, other) ∈ shortEscapes) :
    char = other := by
  have functional :
      ∀ escape ∈ shortEscapes, ∀ another ∈ shortEscapes,
        escape.1 = another.1 → escape.2 = another.2 := by
    decide
  exact functional _ listed _ otherListed rfl

/-- No escape of its own has the letter that comes before a code. -/
theorem letter_ne_of_mem_shortEscapes
    {letter char : Char}
    (listed : (letter, char) ∈ shortEscapes) :
    letter ≠ 'u' := by
  have others : ∀ escape ∈ shortEscapes, escape.1 ≠ 'u' := by
    decide
  exact others _ listed

/-- A character's code never begins a pair of codes. -/
theorem Coded.append_ne_high
    {char : Char}
    {high : Nat}
    {digits highDigits rest remaining : List Char}
    (coded : Coded char.toNat digits)
    (highCoded : Coded high highDigits)
    (isHigh : 0xd800 ≤ high ∧ high < 0xdc00) :
    digits ++ rest ≠ highDigits ++ remaining := by
  intro same
  obtain ⟨codes, -⟩ := coded.append_inj highCoded same
  exact not_surrogate char (by omega)

/-- A character of a string can be read off. -/
theorem Writes.append_inj
    {char other : Char}
    {form otherForm rest remaining : List Char}
    (writes : Writes char form)
    (otherWrites : Writes other otherForm)
    (same : form ++ rest = otherForm ++ remaining) :
    char = other ∧ rest = remaining := by
  cases writes with
  | plain printable noQuote noBackslash =>
      cases otherWrites with
      | plain => exact List.cons.inj same
      | _ => exact absurd (List.cons.inj same).1 noBackslash
  | short listed =>
      have letter := letter_ne_of_mem_shortEscapes listed
      cases otherWrites with
      | plain _ _ noBackslash =>
          exact absurd (List.cons.inj same).1.symm noBackslash
      | short otherListed =>
          obtain ⟨rfl, rests⟩ := List.cons.inj (List.cons.inj same).2
          exact ⟨shortEscapes_functional listed otherListed, rests⟩
      | _ => exact absurd (List.cons.inj (List.cons.inj same).2).1 letter
  | coded code =>
      cases otherWrites with
      | plain _ _ noBackslash =>
          exact absurd (List.cons.inj same).1.symm noBackslash
      | short listed =>
          have letter := letter_ne_of_mem_shortEscapes listed
          exact absurd (List.cons.inj (List.cons.inj same).2).1.symm letter
      | coded otherCode =>
          obtain ⟨codes, rests⟩ :=
            code.append_inj otherCode (List.cons.inj (List.cons.inj same).2).2
          exact ⟨Char.toNat_inj.mp codes, rests⟩
      | paired highCode _ isHigh =>
          simp only [List.cons_append, List.append_assoc] at same
          exact
            absurd (List.cons.inj (List.cons.inj same).2).2
              (code.append_ne_high highCode isHigh)
  | paired highCode lowCode isHigh isLow code =>
      cases otherWrites with
      | plain _ _ noBackslash =>
          exact absurd (List.cons.inj same).1.symm noBackslash
      | short listed =>
          have letter := letter_ne_of_mem_shortEscapes listed
          exact absurd (List.cons.inj (List.cons.inj same).2).1.symm letter
      | coded otherCode =>
          simp only [List.cons_append, List.append_assoc] at same
          exact
            absurd (List.cons.inj (List.cons.inj same).2).2.symm
              (otherCode.append_ne_high highCode isHigh)
      | paired otherHighCode otherLowCode otherIsHigh otherIsLow otherCode =>
          simp only [List.cons_append, List.append_assoc] at same
          obtain ⟨highs, tails⟩ :=
            highCode.append_inj otherHighCode
              (List.cons.inj (List.cons.inj same).2).2
          obtain ⟨lows, rests⟩ :=
            lowCode.append_inj otherLowCode
              (List.cons.inj (List.cons.inj tails).2).2
          refine ⟨Char.toNat_inj.mp ?_, rests⟩
          rw [code, otherCode, highs, lows]

/-- No way to write a character begins with a quote. -/
theorem Writes.head
    {char : Char}
    {form : List Char}
    (writes : Writes char form) :
    ∃ first tail, form = first :: tail ∧ first ≠ '"' := by
  cases writes with
  | plain _ noQuote => exact ⟨_, _, rfl, noQuote⟩
  | _ => exact ⟨_, _, rfl, by decide⟩

/-- The characters of a string can be read off up to the quote that ends it. -/
theorem Literal.append_inj
    {text other form otherForm rest remaining : List Char}
    (literal : Literal text form)
    (otherLiteral : Literal other otherForm)
    (same : form ++ '"' :: rest = otherForm ++ '"' :: remaining) :
    text = other ∧ rest = remaining := by
  induction literal generalizing other otherForm with
  | nil =>
      cases otherLiteral with
      | nil => exact ⟨rfl, (List.cons.inj same).2⟩
      | cons writes =>
          obtain ⟨first, tail, rfl, noQuote⟩ := writes.head
          exact absurd (List.cons.inj same).1.symm noQuote
  | cons writes _ inductionHypothesis =>
      cases otherLiteral with
      | nil =>
          obtain ⟨first, tail, rfl, noQuote⟩ := writes.head
          exact absurd (List.cons.inj same).1 noQuote
      | cons otherWrites otherRest =>
          rw [List.append_assoc, List.append_assoc] at same
          obtain ⟨rfl, tails⟩ := writes.append_inj otherWrites same
          obtain ⟨rfl, rests⟩ := inductionHypothesis otherRest tails
          exact ⟨rfl, rests⟩

/-- A string can be read off. -/
theorem Quotes.append_inj
    {text other : String}
    {form otherForm rest remaining : List Char}
    (quotes : Quotes text form)
    (otherQuotes : Quotes other otherForm)
    (same : form ++ rest = otherForm ++ remaining) :
    text = other ∧ rest = remaining := by
  obtain ⟨inner, literal, rfl⟩ := quotes
  obtain ⟨otherInner, otherLiteral, rfl⟩ := otherQuotes
  simp only [List.cons_append, List.append_assoc] at same
  obtain ⟨texts, rests⟩ :=
    literal.append_inj otherLiteral (List.cons.inj same).2
  exact ⟨String.toList_inj.mp texts, rests⟩

/-! ## Numerals -/

namespace Numeral

theorem text_append
    (numeral : Numeral)
    (rest : List Char) :
    numeral.text ++ rest =
      (if numeral.negative then ['-'] else []) ++
        (numeral.whole ++ (numeral.fraction ++ numeral.exponent ++ rest)) := by
  simp only [text, List.append_assoc]

theorem exists_whole_cons (numeral : Numeral) :
    ∃ first tail, numeral.whole = first :: tail ∧ first.isDigit = true := by
  obtain ⟨nonempty, each⟩ := numeral.digits
  obtain ⟨first, tail, same⟩ := List.exists_cons_of_ne_nil nonempty
  refine ⟨first, tail, same, each first ?_⟩
  rw [same]
  exact List.mem_cons_self

/-- What comes after the digits before the point begins with no digit. -/
theorem tail_cases (numeral : Numeral) :
    (numeral.fraction = [] ∧ numeral.exponent = []) ∨
      ∃ first tail,
        numeral.fraction ++ numeral.exponent = first :: tail ∧
          goesOn first = true ∧ first.isDigit = false := by
  rcases numeral.isFraction with noFraction | ⟨digits, -, fraction⟩
  · rcases numeral.isExponent with
      noExponent | ⟨mark, sign, digits, isMark, -, -, exponent⟩
    · exact Or.inl ⟨noFraction, noExponent⟩
    · rw [noFraction, exponent]
      refine Or.inr ⟨mark, _, rfl, ?_⟩
      rcases isMark with rfl | rfl <;> decide
  · rw [fraction]
    exact Or.inr ⟨'.', _, rfl, by decide⟩

theorem stops_isDigit_tail
    (numeral : Numeral)
    {rest : List Char}
    (stops : Stops goesOn rest) :
    Stops Char.isDigit (numeral.fraction ++ numeral.exponent ++ rest) := by
  rcases numeral.tail_cases with
    ⟨noFraction, noExponent⟩ | ⟨first, tail, same, -, noDigit⟩
  · rw [noFraction, noExponent]
    intro char isFirst
    have ended := stops char isFirst
    simp only [goesOn, Bool.or_eq_false_iff] at ended
    exact ended.1.1.1
  · rw [same]
    exact stops_cons noDigit _

/-- Numerals that go on alike have the same sign. -/
theorem negative_of_append
    {numeral other : Numeral}
    {rest remaining : List Char}
    (same : numeral.text ++ rest = other.text ++ remaining) :
    numeral.negative = other.negative := by
  obtain ⟨first, tail, whole, isDigit⟩ := numeral.exists_whole_cons
  obtain ⟨otherFirst, otherTail, otherWhole, otherIsDigit⟩ :=
    other.exists_whole_cons
  rw [text, text, whole, otherWhole] at same
  cases minus : numeral.negative with
  | false =>
      cases otherMinus : other.negative with
      | false => rfl
      | true =>
          rw [minus, otherMinus] at same
          obtain rfl : first = '-' := (List.cons.inj same).1
          contradiction
  | true =>
      cases otherMinus : other.negative with
      | true => rfl
      | false =>
          rw [minus, otherMinus] at same
          obtain rfl : '-' = otherFirst := (List.cons.inj same).1
          contradiction

/-- A numeral of an integer has digits only. -/
theorem integral_of_integer?
    {numeral : Numeral}
    {value : Int}
    (means : numeral.integer? = some value) :
    numeral.fraction = [] ∧ numeral.exponent = [] := by
  unfold integer? at means
  split at means
  case isTrue only => exact ⟨only.1, only.2.1⟩
  case isFalse => contradiction

/-- A numeral of an integer can be read off where no numeral goes on. -/
theorem append_inj
    {numeral other : Numeral}
    {value : Int}
    {rest remaining : List Char}
    (means : numeral.integer? = some value)
    (stops : Stops goesOn rest)
    (otherStops : Stops goesOn remaining)
    (same : numeral.text ++ rest = other.text ++ remaining) :
    other.integer? = some value ∧ rest = remaining := by
  obtain ⟨noFraction, noExponent⟩ := integral_of_integer? means
  have signs := negative_of_append same
  rw [text_append, text_append, signs, List.append_cancel_left_eq] at same
  obtain ⟨wholes, tails⟩ :=
    run_append_inj numeral.digits.2 other.digits.2
      (numeral.stops_isDigit_tail stops) (other.stops_isDigit_tail otherStops)
      same
  rw [noFraction, noExponent, List.nil_append, List.nil_append] at tails
  rcases other.tail_cases with
    ⟨otherNoFraction, otherNoExponent⟩ | ⟨first, tail, begins, continues, -⟩
  · rw [otherNoFraction, otherNoExponent] at tails
    refine ⟨?_, tails⟩
    rw [← means, integer?, integer?, signs, wholes, noFraction, noExponent,
      otherNoFraction, otherNoExponent]
  -- The other numeral goes on after the digits, where this one has stopped.
  · rw [begins] at tails
    have stopped := stops first (by rw [tails]; rfl)
    rw [continues] at stopped
    contradiction

end Numeral

/-! ## The first character of a value -/

/-- The character that the values of a kind begin with, a zero for all numbers. -/
def opener : Payload → Char
  | .null => 'n'
  | .bool true => 't'
  | .bool false => 'f'
  | .whole _ => '0'
  | .real _ => '0'
  | .text _ => '"'
  | .array _ => '['
  | .object _ => '{'

/-- The opener of what begins with a character. -/
def openerOf (first : Char) : Char :=
  if first = '-' ∨ first.isDigit = true then '0' else first

theorem Numeral.exists_text_cons (numeral : Numeral) :
    ∃ first tail, numeral.text = first :: tail ∧ openerOf first = '0' := by
  obtain ⟨first, tail, whole, isDigit⟩ := numeral.exists_whole_cons
  rw [text, whole]
  cases numeral.negative with
  | true => exact ⟨'-', _, rfl, rfl⟩
  | false => exact ⟨first, _, rfl, if_pos (Or.inr isDigit)⟩

/-- The first character of a value tells its kind. -/
theorem Spells.exists_cons
    {payload : Payload}
    {form : List Char}
    (spells : Spells payload form) :
    ∃ first tail, form = first :: tail ∧ openerOf first = opener payload := by
  cases spells with
  | whole | real => exact Numeral.exists_text_cons _
  | text quotes =>
      obtain ⟨inner, -, rfl⟩ := quotes
      exact ⟨_, _, rfl, rfl⟩
  | _ => exact ⟨_, _, rfl, rfl⟩

/-- Values that go on alike are of one kind. -/
theorem Spells.opener_of_append
    {payload other : Payload}
    {form otherForm rest remaining : List Char}
    (spells : Spells payload form)
    (otherSpells : Spells other otherForm)
    (same : form ++ rest = otherForm ++ remaining) :
    opener payload = opener other := by
  obtain ⟨first, tail, rfl, opens⟩ := spells.exists_cons
  obtain ⟨otherFirst, otherTail, rfl, otherOpens⟩ := otherSpells.exists_cons
  rw [← opens, ← otherOpens, (List.cons.inj same).1]

/-! ## Parts of containers -/

/-- Whether a text begins, after a gap, with neither a separator nor a bracket. -/
def Begins (text : List Char) : Prop :=
  ∃ (gap : Gap) (first : Char) (tail : List Char),
    text = gap.text ++ first :: tail ∧
      isSpace first = false ∧ isMark first = false

/-- A gap in front of a mark is no beginning of a part. -/
theorem Begins.append_ne_gap
    {text : List Char}
    (begins : Begins text)
    (gap : Gap)
    {mark : Char}
    (isMark : isMark mark = true)
    (rest remaining : List Char) :
    gap.text ++ mark :: rest ≠ text ++ remaining := by
  intro same
  obtain ⟨before, first, tail, rfl, noSpace, noMark⟩ := begins
  rw [List.append_assoc] at same
  have tails :=
    Gap.append_inj (stops_cons (isSpace_of_isMark isMark) _)
      (stops_cons noSpace _) same
  obtain rfl : mark = first := (List.cons.inj tails).1
  rw [isMark] at noMark
  contradiction

/-- What goes on with a numeral is no white space and no mark. -/
theorem noSpace_noMark_of_goesOn
    {char : Char}
    (continues : goesOn char = true) :
    isSpace char = false ∧ isMark char = false := by
  constructor
  · apply Bool.eq_false_of_not_eq_true
    intro space
    exact absurd continues (Bool.eq_false_iff.mp (goesOn_of_isSpace space))
  · apply Bool.eq_false_of_not_eq_true
    intro mark
    exact absurd continues (Bool.eq_false_iff.mp (goesOn_of_isMark mark))

/-- A value begins with no white space and no mark. -/
theorem Spells.exists_noSpace_noMark
    {payload : Payload}
    {form : List Char}
    (spells : Spells payload form) :
    ∃ first tail,
      form = first :: tail ∧ isSpace first = false ∧ isMark first = false := by
  obtain ⟨first, tail, same, opens⟩ := spells.exists_cons
  refine ⟨first, tail, same, ?_⟩
  by_cases numeric : first = '-' ∨ first.isDigit = true
  · rcases numeric with rfl | digit
    · decide
    · apply noSpace_noMark_of_goesOn
      rw [goesOn, digit]
      rfl
  · rw [openerOf, if_neg numeric] at opens
    rw [opens]
    rcases payload with _ | ⟨_ | _⟩ | _ | _ | _ | _ | _ <;> exact ⟨rfl, rfl⟩

section

variable {α β : Type}
variable {text : α → List Char} {meaning : α → β}

/-- Whether two parts in front of marks can only go on alike if they mean the same. -/
def ReadOff
    (text : α → List Char)
    (meaning : α → β)
    (part other : α) : Prop :=
  ∀ mark otherMark rest remaining,
    isMark mark = true →
    isMark otherMark = true →
    text part ++ mark :: rest = text other ++ otherMark :: remaining →
    meaning part = meaning other ∧ mark = otherMark ∧ rest = remaining

/-- Parts between commas can be read off up to the bracket that closes them. -/
theorem intercalate_append_inj
    {closer : Char}
    (closes : isMark closer = true)
    (noComma : closer ≠ ',')
    {part other : α}
    {parts others : List α}
    (readOff :
      ∀ here ∈ part :: parts, ∀ there ∈ other :: others,
        ReadOff text meaning here there)
    {rest remaining : List Char}
    (same :
      List.intercalate [','] ((part :: parts).map text) ++ closer :: rest =
        List.intercalate [','] ((other :: others).map text) ++
          closer :: remaining) :
    (part :: parts).map meaning = (other :: others).map meaning ∧
      rest = remaining := by
  have first := readOff part List.mem_cons_self other List.mem_cons_self
  have comma : isMark ',' = true := rfl
  -- The mark after a part tells whether it is the last, and on both sides alike.
  induction parts generalizing part other others with
  | nil =>
      cases others with
      | nil =>
          obtain ⟨meanings, -, rests⟩ :=
            first closer closer rest remaining closes closes
              (by simpa only [List.map_singleton, List.intercalate_singleton]
                using same)
          exact ⟨congrArg (fun value => [value]) meanings, rests⟩
      | cons next others =>
          simp only [List.map_cons, List.map_nil, List.intercalate_singleton,
            List.intercalate_cons_cons, List.append_assoc,
            List.singleton_append] at same
          obtain ⟨-, marks, -⟩ := first closer ',' _ _ closes comma same
          exact absurd marks noComma
  | cons second parts inductionHypothesis =>
      cases others with
      | nil =>
          simp only [List.map_cons, List.map_nil, List.intercalate_singleton,
            List.intercalate_cons_cons, List.append_assoc,
            List.singleton_append] at same
          obtain ⟨-, marks, -⟩ := first ',' closer _ _ comma closes same
          exact absurd marks.symm noComma
      | cons next others =>
          simp only [List.map_cons, List.intercalate_cons_cons,
            List.append_assoc, List.singleton_append] at same
          obtain ⟨meanings, -, tails⟩ := first ',' ',' _ _ comma comma same
          have later :
              ∀ here ∈ second :: parts, ∀ there ∈ next :: others,
                ReadOff text meaning here there := by
            intro here isHere there isThere
            exact
              readOff here (List.mem_cons_of_mem _ isHere)
                there (List.mem_cons_of_mem _ isThere)
          obtain ⟨meaningsLater, rests⟩ :=
            inductionHypothesis later tails
              (later second List.mem_cons_self next List.mem_cons_self)
          exact ⟨congrArg₂ List.cons meanings meaningsLater, rests⟩

/-- What stands between commas begins with the first part. -/
theorem exists_intercalate_cons
    (first : List Char)
    (rest : List (List Char)) :
    ∃ tail, List.intercalate [','] (first :: rest) = first ++ tail := by
  cases rest with
  | nil => exact ⟨[], by rw [List.intercalate_singleton, List.append_nil]⟩
  | cons second rest =>
      exact ⟨_, by rw [List.intercalate_cons_cons, List.append_assoc]⟩

/-- A gap in front of a mark is no list of parts. -/
theorem Begins.intercalate_append_ne_gap
    {first : List Char}
    (begins : Begins first)
    (gap : Gap)
    {mark : Char}
    (isMark : isMark mark = true)
    (others : List (List Char))
    (rest remaining : List Char) :
    gap.text ++ mark :: rest ≠
      List.intercalate [','] (first :: others) ++ remaining := by
  obtain ⟨tail, same⟩ := exists_intercalate_cons first others
  rw [same, List.append_assoc]
  exact begins.append_ne_gap gap isMark rest _

/-- What stands within a container can be read off up to the bracket that closes it. -/
theorem Lists.append_inj
    {closer : Char}
    (closes : isMark closer = true)
    (noComma : closer ≠ ',')
    {parts others : List α}
    (begins : ∀ part ∈ parts, Begins (text part))
    (otherBegins : ∀ other ∈ others, Begins (text other))
    (readOff :
      ∀ here ∈ parts, ∀ there ∈ others, ReadOff text meaning here there)
    {inner otherInner rest remaining : List Char}
    (lists : Lists (parts.map text) inner)
    (otherLists : Lists (others.map text) otherInner)
    (same : inner ++ closer :: rest = otherInner ++ closer :: remaining) :
    parts.map meaning = others.map meaning ∧ rest = remaining := by
  cases parts with
  | nil =>
      cases lists with
      | none gap =>
          cases others with
          | nil =>
              cases otherLists with
              | none otherGap =>
                  have stops := stops_cons (isSpace_of_isMark closes)
                  have tails :=
                    Gap.append_inj (stops rest) (stops remaining) same
                  exact ⟨rfl, (List.cons.inj tails).2⟩
          | cons other others =>
              cases otherLists with
              | some =>
                  have begins := otherBegins other List.mem_cons_self
                  exact
                    absurd same
                      (begins.intercalate_append_ne_gap gap closes _ _ _)
  | cons part parts =>
      cases lists with
      | some =>
          cases others with
          | nil =>
              cases otherLists with
              | none otherGap =>
                  have begins := begins part List.mem_cons_self
                  exact
                    absurd same.symm
                      (begins.intercalate_append_ne_gap otherGap closes _ _ _)
          | cons other others =>
              cases otherLists with
              | some =>
                  exact intercalate_append_inj closes noComma readOff same

end

/-! ## Items and entries -/

theorem Item.begins
    {item : Item}
    (spells : Spells item.payload item.form) :
    Begins item.text := by
  obtain ⟨first, tail, same, noSpace, noMark⟩ := spells.exists_noSpace_noMark
  rw [text, same, List.cons_append]
  exact ⟨item.before, first, _, rfl, noSpace, noMark⟩

theorem Entry.begins (entry : Entry) : Begins entry.text := by
  obtain ⟨inner, -, same⟩ := entry.quotes
  rw [text, same, List.cons_append]
  exact ⟨entry.before, '"', _, rfl, rfl, rfl⟩

/-- Whether a form is that of one payload only, wherever no numeral goes on. -/
def Legible (payload : Payload) (form : List Char) : Prop :=
  ∀ other otherForm rest remaining,
    Spells other otherForm →
    Stops goesOn rest →
    Stops goesOn remaining →
    form ++ rest = otherForm ++ remaining →
    payload = other ∧ rest = remaining

/-- An item can be read off if its value can. -/
theorem Item.readOff
    {item other : Item}
    (legible : Legible item.payload item.form)
    (spells : Spells item.payload item.form)
    (otherSpells : Spells other.payload other.form) :
    ReadOff text payload item other := by
  intro mark otherMark rest remaining isMark otherIsMark same
  have stopsSpaces :
      ∀ {item : Item}, Spells item.payload item.form →
        ∀ rest, Stops isSpace (item.form ++ rest) := by
    intro item spells rest
    obtain ⟨first, tail, same, noSpace, -⟩ := spells.exists_noSpace_noMark
    rw [same]
    exact stops_cons noSpace _
  simp only [text, List.append_assoc] at same
  have forms :=
    Gap.append_inj (stopsSpaces spells _) (stopsSpaces otherSpells _) same
  obtain ⟨payloads, tails⟩ :=
    legible _ _ _ _ otherSpells
      (item.after.stops_goesOn_append
        (stops_cons (goesOn_of_isMark isMark) _))
      (other.after.stops_goesOn_append
        (stops_cons (goesOn_of_isMark otherIsMark) _))
      forms
  have ends :=
    Gap.append_inj (stops_cons (isSpace_of_isMark isMark) _)
      (stops_cons (isSpace_of_isMark otherIsMark) _) tails
  obtain ⟨marks, rests⟩ := List.cons.inj ends
  exact ⟨payloads, marks, rests⟩

/-- An entry can be read off if its item can. -/
theorem Entry.readOff
    {entry other : Entry}
    (readItem : ReadOff Item.text Item.payload entry.item other.item) :
    ReadOff text binding entry other := by
  intro mark otherMark rest remaining isMark otherIsMark same
  have stopsSpaces :
      ∀ (entry : Entry) rest, Stops isSpace (entry.form ++ rest) := by
    intro entry rest
    obtain ⟨inner, -, same⟩ := entry.quotes
    rw [same]
    exact stops_cons rfl _
  simp only [text, List.append_assoc, List.cons_append] at same
  have forms :=
    Gap.append_inj (stopsSpaces entry _) (stopsSpaces other _) same
  obtain ⟨keys, colons⟩ := entry.quotes.append_inj other.quotes forms
  have items := Gap.append_inj (stops_cons rfl _) (stops_cons rfl _) colons
  obtain ⟨payloads, marks, rests⟩ :=
    readItem _ _ _ _ isMark otherIsMark (List.cons.inj items).2
  exact ⟨Prod.ext keys payloads, marks, rests⟩

/-! ## Values -/

/-- An integer is legible: where it ends, no other numeral goes on. -/
theorem legible_whole
    {numeral : Numeral}
    {number : Whole}
    (value : numeral.integer? = some number.value) :
    Legible (.whole number) numeral.text := by
  intro other otherForm rest remaining otherSpells stops otherStops same
  have openers := (Spells.whole value).opener_of_append otherSpells same
  cases otherSpells with
  | @whole otherNumeral otherNumber otherValue =>
      obtain ⟨means, rests⟩ := Numeral.append_inj value stops otherStops same
      have values := Option.some.inj (means.symm.trans otherValue)
      exact ⟨congrArg Payload.whole (Whole.eq_of_value values), rests⟩
  | real noWhole =>
      obtain ⟨means, -⟩ := Numeral.append_inj value stops otherStops same
      exact absurd means (noWhole number)
  | _ => simp [opener] at openers

/-- A string is legible. -/
theorem legible_text
    {value : String}
    {form : List Char}
    (quotes : Quotes value form) :
    Legible (.text value) form := by
  intro other otherForm rest remaining otherSpells _ _ same
  have openers := (Spells.text quotes).opener_of_append otherSpells same
  cases otherSpells with
  | text otherQuotes =>
      obtain ⟨texts, rests⟩ := quotes.append_inj otherQuotes same
      exact ⟨congrArg Payload.text texts, rests⟩
  | _ => simp [opener] at openers

/-- An array of legible items is legible. -/
theorem legible_array
    {items : List Item}
    {inner : List Char}
    (lists : Lists (items.map Item.text) inner)
    (each : ∀ item ∈ items, Spells item.payload item.form)
    (legible : ∀ item ∈ items, Legible item.payload item.form) :
    Legible (.array (items.map Item.payload)) ('[' :: (inner ++ [']'])) := by
  intro other otherForm rest remaining otherSpells _ _ same
  have openers := (Spells.array lists each).opener_of_append otherSpells same
  cases otherSpells with
  | @array others otherInner otherLists otherEach =>
      have readOff :
          ∀ item ∈ items, ∀ other ∈ others,
            ReadOff Item.text Item.payload item other :=
        fun item isItem other isOther =>
          Item.readOff (legible item isItem) (each item isItem)
            (otherEach other isOther)
      have closes : isMark ']' = true := rfl
      simp only [List.cons_append, List.append_assoc, List.nil_append] at same
      obtain ⟨payloads, rests⟩ :=
        Lists.append_inj closes (by decide)
          (fun item isItem => Item.begins (each item isItem))
          (fun other isOther => Item.begins (otherEach other isOther))
          readOff lists otherLists (List.cons.inj same).2
      exact ⟨congrArg Payload.array payloads, rests⟩
  | _ => simp [opener] at openers

/-- An object of legible values is legible. -/
theorem legible_object
    {entries : List Entry}
    {inner : List Char}
    (lists : Lists (entries.map Entry.text) inner)
    (each : ∀ entry ∈ entries, Spells entry.item.payload entry.item.form)
    (legible : ∀ entry ∈ entries, Legible entry.item.payload entry.item.form) :
    Legible (.object (entries.map Entry.binding))
      ('{' :: (inner ++ ['}'])) := by
  intro other otherForm rest remaining otherSpells _ _ same
  have openers := (Spells.object lists each).opener_of_append otherSpells same
  cases otherSpells with
  | @object others otherInner otherLists otherEach =>
      have readOff :
          ∀ entry ∈ entries, ∀ other ∈ others,
            ReadOff Entry.text Entry.binding entry other :=
        fun entry isEntry other isOther =>
          Entry.readOff
            (Item.readOff (legible entry isEntry) (each entry isEntry)
              (otherEach other isOther))
      have closes : isMark '}' = true := rfl
      simp only [List.cons_append, List.append_assoc, List.nil_append] at same
      obtain ⟨bindings, rests⟩ :=
        Lists.append_inj closes (by decide)
          (fun entry _ => entry.begins) (fun other _ => other.begins)
          readOff lists otherLists (List.cons.inj same).2
      exact ⟨congrArg Payload.object bindings, rests⟩
  | _ => simp [opener] at openers

/--
A value without floating point numbers is legible: it can be read off where no numeral
goes on, and nothing else is spelled the same.
-/
theorem Spells.legible
    {payload : Payload}
    {form : List Char}
    (spells : Spells payload form)
    (floatFree : payload.FloatFree) :
    Legible payload form := by
  induction spells with
  | null =>
      intro other otherForm rest remaining otherSpells _ _ same
      have openers := Spells.null.opener_of_append otherSpells same
      cases otherSpells with
      | null => exact ⟨rfl, List.append_cancel_left same⟩
      | _ => simp [opener] at openers
  | isTrue =>
      intro other otherForm rest remaining otherSpells _ _ same
      have openers := Spells.isTrue.opener_of_append otherSpells same
      cases otherSpells with
      | isTrue => exact ⟨rfl, List.append_cancel_left same⟩
      | _ => simp [opener] at openers
  | isFalse =>
      intro other otherForm rest remaining otherSpells _ _ same
      have openers := Spells.isFalse.opener_of_append otherSpells same
      cases otherSpells with
      | isFalse => exact ⟨rfl, List.append_cancel_left same⟩
      | _ => simp [opener] at openers
  | whole value => exact legible_whole value
  -- Which number such a numeral stands for is open, so it can have no single one.
  | real => cases floatFree
  | text quotes => exact legible_text quotes
  | array lists each inductionHypothesis =>
      cases floatFree with
      | array eachFree =>
          exact
            legible_array lists each fun item isItem =>
              inductionHypothesis item isItem
                (eachFree _ (List.mem_map_of_mem isItem))
  | object lists each inductionHypothesis =>
      cases floatFree with
      | object eachFree =>
          exact
            legible_object lists each fun entry isEntry =>
              inductionHypothesis entry isEntry
                (eachFree _ (List.mem_map_of_mem isEntry))

/-- A text that spells a value without floating point numbers means nothing else. -/
theorem Means.eq_built
    {text : String}
    {item : Item}
    (same : text.toList = item.text)
    (spells : Spells item.payload item.form)
    (floatFree : item.payload.FloatFree)
    {payload : Payload}
    (means : Means text payload) :
    payload = item.payload.built := by
  obtain ⟨other, otherSame, otherSpells, rfl⟩ := means
  have readOff : ReadOff Item.text Item.payload item other :=
    Item.readOff (spells.legible floatFree) spells otherSpells
  have comma : isMark ',' = true := rfl
  -- No mark follows either text, so one and the same is put there.
  obtain ⟨payloads, -⟩ :=
    readOff ',' ',' [] [] comma comma (by rw [← same, otherSame])
  rw [payloads]

end Json

end Reply
