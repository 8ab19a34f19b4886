import Mathlib.Tactic.FinCases
import Reply.Proofs.Text.Digits
import Reply.Toml.Quoted

namespace Reply.Toml

/-!
# Basic strings read back

A character of a basic string may be written in several ways: as itself, by a short
escape, or by the digits of its code.  Every text can be written, and however it is,
reading gives back this text and leaves what follows the closing quote.
-/

/-- A character that may stand for itself: no control, quote or backslash. -/
def Plain (char : Char) : Prop :=
  char = '\t' ∨
    (0x20 ≤ char.toNat ∧ char.toNat ≠ 0x7f ∧ char ≠ '"' ∧ char ≠ '\\')

instance (char : Char) : Decidable (Plain char) :=
  inferInstanceAs (Decidable (_ ∨ _))

/-- The characters with a short escape, each with the mark after its backslash. -/
def shortEscapes : List (Char × Char) :=
  [('\x08', 'b'), ('\t', 't'), ('\n', 'n'), ('\x0c', 'f'), ('\r', 'r'),
    ('"', '"'), ('\\', '\\')]

/-- The ways to write a character in a basic string. -/
inductive Escapes (char : Char) : List Char → Prop
  | plain (plain : Plain char) : Escapes char [char]
  | short
      {mark : Char}
      (listed : (char, mark) ∈ shortEscapes) :
      Escapes char ['\\', mark]
  | four
      {digits : List Char}
      (count : digits.length = 4)
      (code : Hex.read? digits = some char.toNat) :
      Escapes char ('\\' :: 'u' :: digits)
  | eight
      {digits : List Char}
      (count : digits.length = 8)
      (code : Hex.read? digits = some char.toNat) :
      Escapes char ('\\' :: 'U' :: digits)

/-- The ways to write a text between the quotes of a basic string. -/
inductive Quotes : List Char → List Char → Prop
  | nil : Quotes [] []
  | cons
      {char : Char}
      {form : List Char}
      {chars more : List Char}
      (first : Escapes char form)
      (others : Quotes chars more) :
      Quotes (char :: chars) (form ++ more)

/-! ## Every text can be written -/

/-- Two zeros and two digits are the code of a character of ASCII. -/
theorem read?_ascii
    {code : Nat}
    (ascii : code < 128) :
    Hex.read? ['0', '0', (code / 16).digitChar, (code % 16).digitChar] =
      some code := by
  have each :
      ∀ small : Fin 128,
        Hex.read?
            ['0', '0', (small.val / 16).digitChar,
              (small.val % 16).digitChar] =
          some small.val := by
    decide
  exact each ⟨code, ascii⟩

theorem exists_escapes (char : Char) : ∃ form, Escapes char form := by
  by_cases plain : Plain char
  · exact ⟨_, .plain plain⟩
  · by_cases quote : char = '"'
    · subst quote
      exact ⟨['\\', '"'], .short (by decide)⟩
    · by_cases backslash : char = '\\'
      · subst backslash
        exact ⟨['\\', '\\'], .short (by decide)⟩
      · have control : char.toNat < 0x20 ∨ char.toNat = 0x7f := by
          by_contra neither
          refine plain (Or.inr ⟨?_, ?_, quote, backslash⟩) <;> omega
        exact ⟨_, .four rfl (read?_ascii (by omega))⟩

/-- Every text can be written as a basic string. -/
theorem exists_quotes (chars : List Char) : ∃ form, Quotes chars form := by
  induction chars with
  | nil => exact ⟨[], .nil⟩
  | cons char rest inductionHypothesis =>
      obtain ⟨form, escapes⟩ := exists_escapes char
      obtain ⟨more, quotes⟩ := inductionHypothesis
      exact ⟨_, .cons escapes quotes⟩

/-! ## What is written reads back -/

theorem isBasicChar_of_plain
    {char : Char}
    (plain : Plain char) :
    isBasicChar char = true := by
  rcases plain with rfl | ⟨lower, notDelete, notQuote, notBackslash⟩
  · rfl
  · have between : ∀ bound : Char, bound ≤ char ↔ bound.toNat ≤ char.toNat :=
      fun _ => Iff.rfl
    have below : char ≤ '~' ↔ char.toNat ≤ 0x7e := Iff.rfl
    simp only [isBasicChar, isBeyondAscii, between, below, notQuote,
      notBackslash, ne_eq, not_false_eq_true, decide_true, Bool.and_true,
      Bool.or_eq_true, Bool.and_eq_true, decide_eq_true_eq]
    rcases Nat.lt_or_gt_of_ne notDelete with small | large
    · exact Or.inl (Or.inr ⟨lower, Nat.le_of_lt_succ small⟩)
    · exact Or.inr large

/-- The digits of a character's code read back as the character. -/
theorem charOfHex?_of_read?
    {char : Char}
    {digits : List Char}
    (code : Hex.read? digits = some char.toNat) :
    charOfHex? digits = some char := by
  have valid : char.toNat.isValidChar := char.valid
  rw [charOfHex?, code, Option.bind_some, charOfCode?, dif_pos valid]
  rfl

theorem basicRest_backslash
    {text after : List Char}
    {char : Char}
    (taken : escape? text = some (char, after)) :
    basicRest ('\\' :: text) =
      (basicRest after).map fun scanned => (char :: scanned.1, scanned.2) := by
  rw [basicRest]
  split
  · next none =>
      rw [none] at taken
      contradiction
  · next other left same =>
      rw [same] at taken
      obtain ⟨rfl, rfl⟩ := Prod.mk.inj (Option.some.inj taken)
      rfl

/-- A written character is taken off the front. -/
theorem basicRest_escapes
    {char : Char}
    {form : List Char}
    (escapes : Escapes char form)
    (rest : List Char) :
    basicRest (form ++ rest) =
      (basicRest rest).map fun scanned => (char :: scanned.1, scanned.2) := by
  cases escapes with
  | plain plain =>
      have basic := isBasicChar_of_plain plain
      have notQuote : char ≠ '"' := by
        rintro rfl
        contradiction
      have notBackslash : char ≠ '\\' := by
        rintro rfl
        contradiction
      rw [List.singleton_append, basicRest.eq_def]
      split
      · contradiction
      · next same => exact absurd (List.cons.inj same).1 notQuote
      · next same => exact absurd (List.cons.inj same).1 notBackslash
      · next first others _ _ same =>
          obtain ⟨rfl, rfl⟩ := List.cons.inj same
          rw [if_pos basic]
  | short listed =>
      refine basicRest_backslash ?_
      fin_cases listed <;> rfl
  | @four digits count code =>
      refine basicRest_backslash ?_
      have long : 4 ≤ (digits ++ rest).length := by
        rw [List.length_append]
        omega
      simp only [List.cons_append, List.append_eq, escape?]
      rw [if_pos long, List.take_left' count, List.drop_left' count,
        charOfHex?_of_read? code]
      rfl
  | @eight digits count code =>
      refine basicRest_backslash ?_
      have long : 8 ≤ (digits ++ rest).length := by
        rw [List.length_append]
        omega
      simp only [List.cons_append, List.append_eq, escape?]
      rw [if_pos long, List.take_left' count, List.drop_left' count,
        charOfHex?_of_read? code]
      rfl

/-- A written text is taken up to the closing quote. -/
theorem basicRest_quotes
    {chars form : List Char}
    (quotes : Quotes chars form)
    (rest : List Char) :
    basicRest (form ++ '"' :: rest) = some (chars, rest) := by
  induction quotes with
  | nil => rw [List.nil_append, basicRest]
  | cons first _ inductionHypothesis =>
      rw [List.append_assoc, basicRest_escapes first, inductionHypothesis]
      rfl

/-- No written character begins with a quote. -/
theorem Escapes.ne_quote
    {char : Char}
    {form : List Char}
    (escapes : Escapes char form) :
    ∃ first rest, form = first :: rest ∧ first ≠ '"' := by
  cases escapes with
  | plain plain =>
      refine ⟨_, _, rfl, ?_⟩
      rintro rfl
      contradiction
  | short | four | eight => exact ⟨_, _, rfl, by decide⟩

end Reply.Toml
