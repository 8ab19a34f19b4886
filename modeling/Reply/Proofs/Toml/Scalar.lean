import Mathlib
import Reply.Proofs.Text.Digits
import Reply.Proofs.Toml.Quoted
import Reply.Toml.Entry

namespace Reply.Toml

/-!
# Scalars read back

A text, a truth value or a number that is written on a line is read as what it is,
whatever follows it on the line.
-/

/-- The characters that may stand behind a scalar: blanks, a comment, the line's end. -/
def partings : List Char :=
  [' ', '\t', '#', '\n', '\r']

/-- What may follow a scalar on its line, or nothing. -/
inductive Parted : List Char → Prop
  | nil : Parted []
  | cons
      {next : Char}
      (parting : next ∈ partings)
      (rest : List Char) :
      Parted (next :: rest)

/-- The ways to write a text, a truth value, or a number that fits 63 bits. -/
inductive Writes : Value → List Char → Prop
  | text
      {value : String}
      {form : List Char}
      (quotes : Quotes value.toList form) :
      Writes (.text value) ('"' :: (form ++ ['"']))
  | yes : Writes (.truth true) ['t', 'r', 'u', 'e']
  | no : Writes (.truth false) ['f', 'a', 'l', 's', 'e']
  | integer
      {value : Nat}
      (fits : value < 2 ^ 63) :
      Writes (.integer value) (Nat.toDigits 10 value)

/-! ## Digits -/

/-- A parting goes on no number. -/
theorem isDigit_of_parting
    {next : Char}
    (parting : next ∈ partings) :
    isDigit next = false ∧ next ≠ '_' := by
  simp only [partings, List.mem_cons, List.not_mem_nil, or_false] at parting
  rcases parting with rfl | rfl | rfl | rfl | rfl
  all_goals exact ⟨rfl, by decide⟩

theorem ne_of_isDigit
    {digit mark : Char}
    (decimal : isDigit digit = true)
    (noDigit : isDigit mark = false) :
    digit ≠ mark := by
  rintro rfl
  exact Bool.false_ne_true (noDigit.symm.trans decimal)

theorem isDigit_of_mem_toDigits
    (value : Nat) :
    ∀ digit ∈ Nat.toDigits 10 value, isDigit digit = true :=
  fun _ member => Nat.isDigit_of_mem_toDigits (by decide) (by decide) member

section

variable
    {digits rest more : List Char}
    {next mark : Char}
    (parted : Parted rest)
    (isDigits : ∀ digit ∈ digits, isDigit digit = true)

include parted isDigits

/-- What stands behind digits begins with another digit or a parting. -/
theorem digit_or_parting
    (same : digits ++ rest = next :: more) :
    isDigit next = true ∨ next ∈ partings := by
  cases digits with
  | cons digit others =>
      obtain ⟨rfl, -⟩ := List.cons.inj same
      exact Or.inl (isDigits _ List.mem_cons_self)
  | nil =>
      rw [List.nil_append] at same
      cases parted with
      | nil => exact absurd same.symm (List.cons_ne_nil _ _)
      | cons parting _ =>
          obtain ⟨rfl, -⟩ := List.cons.inj same
          exact Or.inr parting

/-- No mark that is neither a digit nor a parting stands behind digits. -/
theorem expect?_digits
    (noDigit : isDigit mark = false)
    (noParting : mark ∉ partings) :
    expect? mark (digits ++ rest) = none := by
  cases same : digits ++ rest with
  | nil => rfl
  | cons next more =>
      refine if_neg ?_
      rintro rfl
      rcases digit_or_parting parted isDigits same with digit | parting
      · rw [digit] at noDigit
        contradiction
      · exact noParting parting

end

section

variable
    {digits rest : List Char}
    (parted : Parted rest)
    (isDigits : ∀ digit ∈ digits, isDigit digit = true)

include parted isDigits

/-- Where a fixed count of digits is taken, digits are left in front of the rest. -/
theorem exists_of_places?
    {count value : Nat}
    {after : List Char}
    (taken : places? count (digits ++ rest) = some (value, after)) :
    ∃ fewer, after = fewer ++ rest ∧ ∀ digit ∈ fewer, isDigit digit = true := by
  simp only [places?, Option.ite_none_right_eq_some, Bool.and_eq_true,
    decide_eq_true_eq, List.all_eq_true, Option.some.injEq, Prod.mk.injEq] at taken
  obtain ⟨⟨long, allDigits⟩, -, rfl⟩ := taken
  by_cases enough : count ≤ digits.length
  · exact
      ⟨_, List.drop_append_of_le_length enough, fun digit member =>
        isDigits digit (List.mem_of_mem_drop member)⟩
  · -- Then what parts the digits from what follows would be a digit.
    obtain ⟨more, rfl⟩ := Nat.exists_eq_add_of_lt (Nat.lt_of_not_le enough)
    rw [Nat.add_assoc, List.take_length_add_append] at long allDigits
    cases parted with
    | nil =>
        rw [List.take_nil, List.append_nil] at long
        omega
    | cons parting others =>
        have digit := allDigits _ (List.mem_append_right _ List.mem_cons_self)
        rw [(isDigit_of_parting parting).1] at digit
        contradiction

/-- Digits alone are no moment. -/
theorem afterMoment?_digits : afterMoment? (digits ++ rest) = none := by
  have noDate : afterDate? (digits ++ rest) = none := by
    unfold afterDate?
    cases taken : places? 4 (digits ++ rest) with
    | none => rfl
    | some scanned =>
        obtain ⟨fewer, left, stillDigits⟩ :=
          exists_of_places? parted isDigits taken
        have noMark : expect? '-' (fewer ++ rest) = none :=
          expect?_digits parted stillDigits rfl (by decide)
        simp only [Option.bind_eq_bind, Option.bind_some, left, noMark]
        rfl
  have noTime : afterTime? (digits ++ rest) = none := by
    unfold afterTime?
    cases taken : upTo? 23 (digits ++ rest) with
    | none => rfl
    | some scanned =>
        obtain ⟨fewer, left, stillDigits⟩ :=
          exists_of_places? parted isDigits (Option.eq_some_of_filter_eq_some taken)
        have noMark : expect? ':' (fewer ++ rest) = none :=
          expect?_digits parted stillDigits rfl (by decide)
        simp only [Option.bind_eq_bind, Option.bind_some, left, noMark]
        rfl
  rw [afterMoment?, noDate, noTime]

/-- All digits are taken. -/
theorem moreDigits_digits :
    moreDigits isDigit (digits ++ rest) = (digits, rest) := by
  induction digits with
  | nil =>
      cases parted with
      | nil => rfl
      | cons parting others =>
          obtain ⟨noDigit, noGap⟩ := isDigit_of_parting parting
          rw [List.nil_append, moreDigits.eq_def]
          split
          · next same => exact absurd (List.cons.inj same).1 noGap
          · next same =>
              obtain ⟨rfl, rfl⟩ := List.cons.inj same
              rw [if_neg (Bool.eq_false_iff.mp noDigit)]
          · next same => exact absurd same (List.cons_ne_nil _ _)
  | cons digit others inductionHypothesis =>
      obtain ⟨first, later⟩ := List.forall_mem_cons.mp isDigits
      rw [List.cons_append, moreDigits.eq_def]
      split
      · next same =>
          exact absurd (List.cons.inj same).1 (ne_of_isDigit first rfl)
      · next same =>
          obtain ⟨rfl, rfl⟩ := List.cons.inj same
          rw [if_pos first, inductionHypothesis later]
      · next same => exact absurd same (List.cons_ne_nil _ _)

end

/-! ## Numbers -/

/-- The digits of a number have its value. -/
theorem valueOf_toDigits (value : Nat) :
    valueOf 10 (Nat.toDigits 10 value) = value := by
  have places :
      ∀ digits : List Char,
        (∀ digit ∈ digits, isDigit digit = true) →
          ∀ init,
            digits.foldl
                (fun value digit =>
                  10 * value + (Hex.digitValue? digit).getD 0) init =
              Nat.ofDigitChars 10 digits init := by
    intro digits isDigits
    induction digits with
    | nil => exact fun _ => rfl
    | cons digit rest inductionHypothesis =>
        obtain ⟨first, later⟩ := List.forall_mem_cons.mp isDigits
        intro init
        have place : Hex.digitValue? digit = some (digit.toNat - 0x30) :=
          if_pos first
        rw [List.foldl_cons, place, inductionHypothesis later]
        rfl
  rw [valueOf, places _ (isDigit_of_mem_toDigits value), Nat.ofDigitChars_ten_toDigits]

/-- The digits of a number are taken as a whole. -/
theorem plainDigits?_toDigits
    {rest : List Char}
    (parted : Parted rest)
    (value : Nat) :
    plainDigits? (Nat.toDigits 10 value ++ rest) =
      some (Nat.toDigits 10 value, rest) := by
  have isDigits := isDigit_of_mem_toDigits value
  rcases Decimal.toDigits_cases value with zero | ⟨first, more, same, notZero⟩
  · rw [zero]
    rfl
  · rw [same] at isDigits ⊢
    obtain ⟨here, later⟩ := List.forall_mem_cons.mp isDigits
    rw [List.cons_append, plainDigits?.eq_def]
    split
    · next zero => exact absurd (List.cons.inj zero).1 notZero
    · rw [digits?, if_pos here, moreDigits_digits parted later]

/-- Digits are no word, and have no sign. -/
theorem sign_digits
    {digit : Char}
    (isDigit : isDigit digit = true)
    (rest : List Char) :
    sign (digit :: rest) = (false, digit :: rest) ∧
      floatWord? (digit :: rest) = none := by
  have unsigned : sign (digit :: rest) = (false, digit :: rest) := by
    unfold sign
    split
    · next same =>
        exact absurd (List.cons.inj same).1 (ne_of_isDigit isDigit rfl)
    · next same =>
        exact absurd (List.cons.inj same).1 (ne_of_isDigit isDigit rfl)
    · rfl
  refine ⟨unsigned, ?_⟩
  rw [floatWord?, unsigned]
  split
  · next same =>
      exact absurd (List.cons.inj same).1 (ne_of_isDigit isDigit rfl)
  · next same =>
      exact absurd (List.cons.inj same).1 (ne_of_isDigit isDigit rfl)
  · rfl

/-- Neither a fraction nor an exponent begins where a number is parted from the rest. -/
theorem fraction?_parted
    {rest : List Char}
    (parted : Parted rest) :
    fraction? rest = some ([], rest) ∧ exponent? rest = some (none, rest) := by
  cases parted with
  | nil => exact ⟨rfl, rfl⟩
  | cons parting others =>
      simp only [partings, List.mem_cons, List.not_mem_nil, or_false] at parting
      rcases parting with rfl | rfl | rfl | rfl | rfl
      all_goals exact ⟨rfl, rfl⟩

theorem ofInt?_of_lt
    {value : Nat}
    (fits : value < 2 ^ 63) :
    Number.ofInt? value = some (.integer value) := by
  have bounds :
      -0x8000000000000000 ≤ (value : Int) ∧
        (value : Int) < 0x8000000000000000 := by
    omega
  rw [Number.ofInt?, if_pos bounds]

/-- A number that fits is read from its digits. -/
theorem decimal?_toDigits
    {rest : List Char}
    (parted : Parted rest)
    {value : Nat}
    (fits : value < 2 ^ 63) :
    decimal? (Nat.toDigits 10 value ++ rest) = some (.integer value, rest) := by
  obtain ⟨digit, more, same⟩ :=
    List.exists_cons_of_ne_nil (Nat.toDigits_ne_nil (n := value) (b := 10))
  have isDigit : isDigit digit = true :=
    isDigit_of_mem_toDigits value digit (same ▸ List.mem_cons_self)
  have unsigned :
      sign (Nat.toDigits 10 value ++ rest) =
        (false, Nat.toDigits 10 value ++ rest) := by
    rw [same]
    exact (sign_digits isDigit _).1
  have inRange :
      Number.ofInt? (signed false (valueOf 10 (Nat.toDigits 10 value))) =
        some (.integer value) := by
    rw [valueOf_toDigits]
    exact ofInt?_of_lt fits
  obtain ⟨noFraction, noExponent⟩ := fraction?_parted parted
  rw [decimal?, unsigned]
  simp only [Option.bind_eq_bind]
  rw [plainDigits?_toDigits parted, Option.bind_some, noFraction,
    Option.bind_some, noExponent, Option.bind_some]
  refine (if_pos ?_).trans ?_
  · rfl
  · rw [inRange]
    rfl

/-- Digits stand for a number in base ten. -/
theorem number?_toDigits
    {rest : List Char}
    (parted : Parted rest)
    {value : Nat}
    (fits : value < 2 ^ 63) :
    number? (Nat.toDigits 10 value ++ rest) = some (.integer value, rest) := by
  have isDigits := isDigit_of_mem_toDigits value
  obtain ⟨digit, more, same⟩ :=
    List.exists_cons_of_ne_nil (Nat.toDigits_ne_nil (n := value) (b := 10))
  have noBase :
      ∀ mark, isDigit mark = false → mark ∉ partings →
        ∀ others, Nat.toDigits 10 value ++ rest ≠ '0' :: mark :: others := by
    intro mark noDigit noParting others based
    rw [same, List.cons_append] at based
    have behind : more ++ rest = mark :: others := (List.cons.inj based).2
    rw [same] at isDigits
    rcases digit_or_parting parted (List.forall_mem_cons.mp isDigits).2 behind with
      digit | parting
    · rw [digit] at noDigit
      contradiction
    · exact noParting parting
  have noWord : floatWord? (Nat.toDigits 10 value ++ rest) = none := by
    rw [same]
    exact (sign_digits (isDigits digit (same ▸ List.mem_cons_self)) _).2
  rw [number?.eq_def]
  split
  · next based => exact absurd based (noBase 'x' rfl (by decide) _)
  · next based => exact absurd based (noBase 'o' rfl (by decide) _)
  · next based => exact absurd based (noBase 'b' rfl (by decide) _)
  · rw [noWord]
    exact decimal?_toDigits parted fits

/-! ## Scalars -/

/-- A written text is read up to its closing quote. -/
theorem quoted?_quotes
    {chars form rest : List Char}
    (quotes : Quotes chars form)
    (parted : Parted rest) :
    quoted? ('"' :: (form ++ '"' :: rest)) = some (chars, rest) := by
  have taken := basicRest_quotes quotes rest
  cases quotes with
  | nil =>
      -- Two quotes are an empty text, for what parts the line is no third one.
      cases parted with
      | nil => exact taken
      | cons parting others =>
          simp only [partings, List.mem_cons, List.not_mem_nil,
            or_false] at parting
          rcases parting with rfl | rfl | rfl | rfl | rfl
          all_goals exact taken
  | @cons char form chars more first others =>
      obtain ⟨mark, left, rfl, notQuote⟩ := first.ne_quote
      rw [quoted?.eq_def]
      split
      · next same =>
          injection same with _ same
          injection same with same
          exact absurd same notQuote
      · next same =>
          rw [← (List.cons.inj same).2]
          exact taken
      · next same => exact absurd (List.cons.inj same).1 (by decide)
      · next same => exact absurd (List.cons.inj same).1 (by decide)
      · next none _ _ => exact absurd rfl (none _)

/-- A scalar is read as what it is, whatever follows on the line. -/
theorem scalar?_writes
    {value : Value}
    {form rest : List Char}
    (writes : Writes value form)
    (parted : Parted rest) :
    scalar? (form ++ rest) = some (value, rest) := by
  cases writes with
  | yes | no => rfl
  | text quotes =>
      have quoted := quoted?_quotes quotes parted
      rw [List.cons_append, List.append_assoc, List.singleton_append]
      unfold scalar?
      split
      · next same => exact absurd (List.cons.inj same).1 (by decide)
      · next same => exact absurd (List.cons.inj same).1 (by decide)
      · simp only [quoted, String.ofList_toList]
  | @integer number fits =>
      have isDigits := isDigit_of_mem_toDigits number
      obtain ⟨digit, more, same⟩ :=
        List.exists_cons_of_ne_nil (Nat.toDigits_ne_nil (n := number) (b := 10))
      have first : isDigit digit = true :=
        isDigits digit (same ▸ List.mem_cons_self)
      have noQuote : quoted? (Nat.toDigits 10 number ++ rest) = none := by
        rw [same, List.cons_append, quoted?.eq_def]
        split
        case h_5 => rfl
        all_goals
          next same =>
            exact absurd (List.cons.inj same).1 (ne_of_isDigit first rfl)
      have noMoment := afterMoment?_digits parted isDigits
      have taken := number?_toDigits parted fits
      unfold scalar?
      split
      · next word =>
          rw [same] at word
          exact absurd (List.cons.inj word).1 (ne_of_isDigit first rfl)
      · next word =>
          rw [same] at word
          exact absurd (List.cons.inj word).1 (ne_of_isDigit first rfl)
      · rw [noQuote, noMoment, taken]

/-- A scalar begins neither with a blank nor as an array or a table does. -/
theorem Writes.exists_cons
    {value : Value}
    {form : List Char}
    (writes : Writes value form) :
    ∃ first rest, form = first :: rest ∧ first ∉ ['[', '{', ' ', '\t'] := by
  cases writes with
  | text | yes | no => exact ⟨_, _, rfl, by decide⟩
  | @integer number _ =>
      obtain ⟨digit, more, same⟩ :=
        List.exists_cons_of_ne_nil (Nat.toDigits_ne_nil (n := number) (b := 10))
      have decimal : isDigit digit = true :=
        isDigit_of_mem_toDigits number digit (same ▸ List.mem_cons_self)
      refine ⟨digit, more, same, ?_⟩
      simp only [List.mem_cons, List.not_mem_nil, or_false, not_or]
      exact
        ⟨ne_of_isDigit decimal rfl, ne_of_isDigit decimal rfl,
          ne_of_isDigit decimal rfl, ne_of_isDigit decimal rfl⟩

/-- A scalar is read as a value at any depth. -/
theorem value?_writes
    {value : Value}
    {form rest : List Char}
    (writes : Writes value form)
    (parted : Parted rest)
    (depth : Nat) :
    value? depth (form ++ rest) = some (value, rest) := by
  rw [← scalar?_writes writes parted]
  obtain ⟨first, more, rfl, noMark⟩ := writes.exists_cons
  simp only [List.mem_cons, not_or] at noMark
  cases depth with
  | zero => rfl
  | succ depth =>
      rw [value?.eq_def]
      split
      · contradiction
      · next same =>
          obtain ⟨rfl, rfl⟩ := same
          split
          · next same => exact absurd (List.cons.inj same).1 noMark.1
          · next same => exact absurd (List.cons.inj same).1 noMark.2.1
          · rfl

end Reply.Toml
