import Mathlib
import Reply.Payload.Json
import Reply.Proofs.Json.Grammar
import Reply.Proofs.Text.Digits

namespace Reply

/-!
# Numerals of floating point numbers

A floating point number is written as a numeral with a fraction or an exponent, which
the grammar sets apart from an integer.  The digits are those of the shortest decimal,
and this lies where every decimal is read as the number: no further from it than half
the way to the next one.
-/

/-- The number that a decimal is. -/
def Decimal.value (number : Decimal) : ℚ :=
  number.coefficient * 10 ^ number.exponent

namespace Binary64

/-- The number without its sign. -/
def magnitude (number : Binary64) : ℚ :=
  number.significand * 2 ^ number.binaryExponent

/-- The distance to the next greater magnitude. -/
def step (number : Binary64) : ℚ :=
  2 ^ number.binaryExponent

/-- The distance to the next smaller magnitude. -/
def stepBelow (number : Binary64) : ℚ :=
  if number.isLowestOfBinade then number.step / 2 else number.step

/--
Whether a value is read as the magnitude: it lies within half a step of it.  A value
halfway between two magnitudes is read as the one with an even significand.
-/
def Reads (number : Binary64) (value : ℚ) : Prop :=
  if number.significand % 2 = 0 then
    number.magnitude - number.stepBelow / 2 ≤ value ∧
      value ≤ number.magnitude + number.step / 2
  else
    number.magnitude - number.stepBelow / 2 < value ∧
      value < number.magnitude + number.step / 2

theorem step_pos (number : Binary64) : 0 < number.step :=
  zpow_pos (by norm_num) _

theorem stepBelow_pos (number : Binary64) : 0 < number.stepBelow := by
  have positive := number.step_pos
  unfold stepBelow
  split <;> linarith

theorem stepBelow_le (number : Binary64) : number.stepBelow ≤ number.step := by
  have positive := number.step_pos
  unfold stepBelow
  split <;> linarith

/-- A magnitude is read as itself. -/
theorem reads_magnitude (number : Binary64) : number.Reads number.magnitude := by
  have above := number.step_pos
  have below := number.stepBelow_pos
  unfold Reads
  split <;> constructor <;> linarith

/-- What is read as a number other than zero is positive. -/
theorem Reads.pos
    {number : Binary64}
    {value : ℚ}
    (reads : number.Reads value)
    (nonzero : number.isZero = false) :
    0 < value := by
  have significand : 1 ≤ number.significand :=
    Nat.one_le_iff_ne_zero.mpr (of_decide_eq_false nonzero)
  have positive := number.step_pos
  have least : number.step ≤ number.magnitude := by
    have whole : (1 : ℚ) ≤ number.significand := by exact_mod_cast significand
    exact le_mul_of_one_le_left positive.le whole
  have below := number.stepBelow_le
  unfold Reads at reads
  split at reads
  · linarith [reads.1]
  · linarith [reads.1]

end Binary64

/-! ## Spans -/

namespace Shortest

/-- The unit that a span is counted in, scaled back, is a quarter of a step. -/
theorem unit_eq (power : Int) :
    ((if 0 ≤ power then
        Nat.pow 2 power.toNat
      else
        Nat.pow 5 (-power).toNat : Nat) : ℚ) =
      2 ^ power * 10 ^ (-power).toNat := by
  split
  · next nonneg =>
      obtain ⟨count, rfl⟩ := Int.eq_ofNat_of_zero_le nonneg
      simp
  · next negative =>
      obtain ⟨count, rfl⟩ : ∃ count : Nat, power = -count :=
        ⟨(-power).toNat, by omega⟩
      have ten : (10 : ℚ) = 2 * 5 := by norm_num
      simp only [neg_neg, Int.toNat_natCast, Nat.pow_eq, Nat.cast_pow,
        Nat.cast_ofNat, zpow_neg, zpow_natCast, ten, mul_pow]
      field_simp

section

variable (number : Binary64)

/-- A quarter of a step, in the scale of the span. -/
def quarter : ℚ :=
  2 ^ (number.binaryExponent - 2) * 10 ^ (span number).scale

theorem step_scaled :
    number.step * 10 ^ (span number).scale = 4 * quarter number := by
  have two : (2 : ℚ) ≠ 0 := by norm_num
  rw [Binary64.step, quarter, zpow_sub₀ two]
  ring

theorem value_eq :
    ((span number).value : ℚ) =
      number.magnitude * 10 ^ (span number).scale := by
  calc
    ((span number).value : ℚ)
        = 4 * number.significand * quarter number := by
          simp only [span, Nat.cast_mul, Nat.cast_ofNat, unit_eq, quarter]
    _ = number.significand * (number.step * 10 ^ (span number).scale) := by
          rw [step_scaled]
          ring
    _ = number.magnitude * 10 ^ (span number).scale := by
          rw [Binary64.magnitude, Binary64.step]
          ring

theorem upper_eq :
    ((span number).upper : ℚ) =
      (number.magnitude + number.step / 2) * 10 ^ (span number).scale := by
  calc
    ((span number).upper : ℚ)
        = (4 * number.significand + 2) * quarter number := by
          simp only [span, Nat.cast_mul, Nat.cast_add, Nat.cast_ofNat, unit_eq,
            quarter]
    _ = number.significand * (number.step * 10 ^ (span number).scale) +
          number.step * 10 ^ (span number).scale / 2 := by
          rw [step_scaled]
          ring
    _ = (number.magnitude + number.step / 2) * 10 ^ (span number).scale := by
          rw [Binary64.magnitude, Binary64.step]
          ring

variable {number}

theorem lower_eq
    (nonzero : number.isZero = false) :
    ((span number).lower : ℚ) =
      (number.magnitude - number.stepBelow / 2) *
        10 ^ (span number).scale := by
  have significand : 1 ≤ number.significand :=
    Nat.one_le_iff_ne_zero.mpr (of_decide_eq_false nonzero)
  have below :
      (if number.isLowestOfBinade then 1 else 2) ≤ 4 * number.significand := by
    split <;> omega
  calc
    ((span number).lower : ℚ)
        = (4 * number.significand -
            (if number.isLowestOfBinade then 1 else 2)) * quarter number := by
          simp only [span, Nat.cast_mul, Nat.cast_sub below, Nat.cast_ofNat,
            unit_eq, quarter]
          rw [Nat.cast_ite, Nat.cast_one, Nat.cast_ofNat]
    _ = number.significand * (number.step * 10 ^ (span number).scale) -
          number.stepBelow / 2 * 10 ^ (span number).scale := by
          have scaled := step_scaled number
          unfold Binary64.stepBelow
          split
          · linear_combination (1 / 4 - number.significand) * scaled
          · linear_combination (1 / 2 - number.significand) * scaled
    _ = (number.magnitude - number.stepBelow / 2) *
          10 ^ (span number).scale := by
          rw [Binary64.magnitude, Binary64.step]
          ring

/-- The points of a span, scaled back, are what is read as the number. -/
theorem holds_iff_reads
    (nonzero : number.isZero = false)
    (point : Nat) :
    (span number).holds point = true ↔
      number.Reads (point / 10 ^ (span number).scale) := by
  have tens : (0 : ℚ) < 10 ^ (span number).scale := by positivity
  have closed :
      (span number).closed = decide (number.significand % 2 = 0) :=
    rfl
  rw [Binary64.Reads, le_div_iff₀ tens, div_le_iff₀ tens, lt_div_iff₀ tens,
    div_lt_iff₀ tens, ← lower_eq nonzero, ← upper_eq, Span.holds, closed]
  split <;> simp_all

/-- The magnitude is in the span. -/
theorem holds_value
    (nonzero : number.isZero = false) :
    (span number).holds (span number).value = true := by
  have tens : (0 : ℚ) < 10 ^ (span number).scale := by positivity
  rw [holds_iff_reads nonzero, value_eq, mul_div_cancel_right₀ _ tens.ne']
  exact number.reads_magnitude

end

namespace Span

/-- A decimal whose point is in the span. -/
def Contains (range : Span) (number : Decimal) : Prop :=
  ∃ point : Nat,
    range.holds point = true ∧ number.value = point / 10 ^ range.scale

theorem contains_of_onGrid?
    {range : Span}
    {drop : Nat}
    {number : Decimal}
    (found : range.onGrid? drop = some number) :
    range.Contains number := by
  obtain ⟨coefficient, chosen, rfl⟩ := Option.map_eq_some_iff.mp found
  refine ⟨coefficient * Nat.pow 10 drop, ?held, ?value⟩
  case held =>
    split at chosen
    · next here there =>
        rw [← Option.some.inj chosen]
        unfold nearer
        simp only
        split_ifs <;> assumption
    · next here there =>
        rw [← Option.some.inj chosen]
        exact here
    · next here there =>
        rw [← Option.some.inj chosen]
        exact there
    · contradiction
  case value =>
    have ten : (10 : ℚ) ≠ 0 := by norm_num
    rw [Decimal.value, zpow_sub₀ ten]
    simp [mul_div_assoc]

/-- The search stays in the span if it starts there. -/
theorem contains_search
    {range : Span}
    (held : range.holds range.value = true)
    (drop : Nat) :
    range.Contains (range.search drop) := by
  induction drop with
  | zero =>
      rw [search]
      cases found : range.onGrid? 0 with
      | some number => exact contains_of_onGrid? found
      | none =>
          refine ⟨range.value, held, ?_⟩
          simp [Decimal.value, div_eq_mul_inv]
  | succ drop inductionHypothesis =>
      rw [search]
      split
      · next found => exact contains_of_onGrid? found
      · exact inductionHypothesis

end Span

/-- A factor of ten is moved to the exponent. -/
theorem value_stripZeros
    (limit : Nat)
    (number : Decimal) :
    (stripZeros limit number).value = number.value := by
  induction limit generalizing number with
  | zero => rfl
  | succ limit inductionHypothesis =>
      rw [stripZeros]
      split
      · next divides =>
          have ten : (10 : ℚ) ≠ 0 := by norm_num
          have whole : number.coefficient / 10 * 10 = number.coefficient :=
            Nat.div_mul_cancel (Nat.dvd_of_mod_eq_zero divides)
          rw [inductionHypothesis, Decimal.value, Decimal.value, ← whole,
            zpow_add₀ ten]
          push_cast
          simp only [Nat.mul_div_cancel _ (show 0 < 10 by decide)]
          ring
      · rfl

/-- The shortest decimal is read as the number. -/
theorem reads_decimal
    {number : Binary64}
    (nonzero : number.isZero = false) :
    number.Reads (decimal number).value := by
  obtain ⟨point, held, same⟩ :=
    Span.contains_search (holds_value nonzero)
      ((Nat.toDigits 10 (span number).value).length - 1)
  rw [decimal, value_stripZeros, same]
  exact (holds_iff_reads nonzero point).mp held

end Shortest

/-! ## Numerals -/

namespace Json

theorem digits_natural (value : Nat) : Digits (natural value) :=
  ⟨Nat.toDigits_ne_nil,
    fun _ member => Nat.isDigit_of_mem_toDigits (by decide) (by decide) member⟩

theorem Digits.of_subset
    {text part : List Char}
    (digits : Digits text)
    (present : part ≠ [])
    (subset : part ⊆ text) :
    Digits part :=
  ⟨present, fun char member => digits.2 char (subset member)⟩

theorem digits_zero : Digits ['0'] :=
  ⟨List.cons_ne_nil _ _, List.forall_mem_singleton.mpr rfl⟩

theorem isDigit_of_mem_replicate_zero
    {count : Nat}
    {char : Char}
    (member : char ∈ List.replicate count '0') :
    char.isDigit = true := by
  rw [List.eq_of_mem_replicate member]
  rfl

namespace Numeral

/-- The digits behind the point. -/
def behind (numeral : Numeral) : List Char :=
  numeral.fraction.tail

/-- The power of ten that the exponent stands for. -/
def power (numeral : Numeral) : Int :=
  match numeral.exponent with
  | [] => 0
  | _ :: '-' :: digits => -(Nat.ofDigitChars 10 digits 0 : Int)
  | _ :: '+' :: digits => Nat.ofDigitChars 10 digits 0
  | _ :: digits => Nat.ofDigitChars 10 digits 0

/-- The number of a numeral, without its sign. -/
def magnitude (numeral : Numeral) : ℚ :=
  Nat.ofDigitChars 10 (numeral.whole ++ numeral.behind) 0 *
    10 ^ (numeral.power - numeral.behind.length)

end Numeral

/-- A numeral of a floating point number: one that is no integer. -/
structure Numeral.IsReal
    (numeral : Numeral)
    (negative : Bool)
    (text : List Char)
    (value : ℚ) :
    Prop where
  sign : numeral.negative = negative
  form : numeral.text = (if negative then ['-'] else []) ++ text
  noInteger : numeral.integer? = none
  meant : numeral.magnitude = value

/-- Digits with a point between them are a numeral. -/
theorem exists_isReal_point
    (negative : Bool)
    {whole behind : List Char}
    (digits : Digits whole)
    (noLeadingZero : whole.head? = some '0' → whole = ['0'])
    (digitsBehind : Digits behind) :
    ∃ numeral : Numeral,
      numeral.IsReal negative (whole ++ '.' :: behind)
        (Nat.ofDigitChars 10 (whole ++ behind) 0 *
          10 ^ (-behind.length : Int)) := by
  refine
    ⟨{  negative := negative
        whole := whole
        fraction := '.' :: behind
        exponent := []
        digits := digits
        noLeadingZero := noLeadingZero
        isFraction := Or.inr ⟨behind, digitsBehind, rfl⟩
        isExponent := Or.inl rfl },
      { sign := rfl
        form := by simp [Numeral.text]
        noInteger := by simp [Numeral.integer?]
        meant := by simp [Numeral.magnitude, Numeral.behind, Numeral.power] }⟩

/-- Digits with an exponent behind them, and perhaps a point between, are a numeral. -/
theorem exists_isReal_exponent
    (negative : Bool)
    {whole behind fraction : List Char}
    (digits : Digits whole)
    (noLeadingZero : whole.head? = some '0' → whole = ['0'])
    (isFraction :
      fraction = [] ∧ behind = [] ∨ Digits behind ∧ fraction = '.' :: behind)
    (power : Int) :
    ∃ numeral : Numeral,
      numeral.IsReal negative
        (whole ++
          (fraction ++
            'e' :: (if power < 0 then '-' else '+') :: natural power.natAbs))
        (Nat.ofDigitChars 10 (whole ++ behind) 0 *
          10 ^ (power - behind.length)) := by
  have tail : fraction.tail = behind := by
    rcases isFraction with ⟨rfl, rfl⟩ | ⟨-, rfl⟩ <;> rfl
  let numeral : Numeral :=
    { negative := negative
      whole := whole
      fraction := fraction
      exponent :=
        'e' :: (if power < 0 then '-' else '+') :: natural power.natAbs
      digits := digits
      noLeadingZero := noLeadingZero
      isFraction :=
        isFraction.imp (fun none => none.1) fun some => ⟨behind, some⟩
      isExponent := by
        refine
          Or.inr
            ⟨'e', [if power < 0 then '-' else '+'], natural power.natAbs,
              Or.inl rfl, ?_, digits_natural _, rfl⟩
        split
        · exact Or.inr (Or.inr rfl)
        · exact Or.inr (Or.inl rfl) }
  have written : Nat.ofDigitChars 10 (natural power.natAbs) 0 = power.natAbs :=
    Nat.ofDigitChars_ten_toDigits
  have meantPower : numeral.power = power := by
    by_cases below : power < 0
    · simp only [Numeral.power, numeral, if_pos below, written]
      omega
    · simp only [Numeral.power, numeral, if_neg below, written]
      omega
  refine ⟨numeral, rfl, rfl, ?noInteger, ?meant⟩
  case noInteger => simp [Numeral.integer?, numeral]
  case meant =>
    rw [Numeral.magnitude, meantPower, Numeral.behind, tail]

section

variable
  (negative : Bool)
  {first : Char}
  {rest : List Char}
  (digits : Digits (first :: rest))
  (notZero : first ≠ '0')

include digits in
/-- Digits below one are written out behind a zero and a point. -/
theorem exists_isReal_below
    (zeros : Nat) :
    ∃ numeral : Numeral,
      numeral.IsReal negative
        ('0' :: '.' :: (List.replicate zeros '0' ++ first :: rest))
        (Nat.ofDigitChars 10 (first :: rest) 0 *
          10 ^ (-zeros - 1 - rest.length : Int)) := by
  have behind : Digits (List.replicate zeros '0' ++ first :: rest) := by
    refine ⟨List.append_ne_nil_of_right_ne_nil _ digits.1, ?_⟩
    intro char member
    rcases List.mem_append.mp member with filling | later
    · exact isDigit_of_mem_replicate_zero filling
    · exact digits.2 char later
  have value :
      Nat.ofDigitChars 10
          (['0'] ++ (List.replicate zeros '0' ++ first :: rest)) 0 =
        Nat.ofDigitChars 10 (first :: rest) 0 := by
    rw [Nat.ofDigitChars_append, Nat.ofDigitChars_append,
      Nat.ofDigitChars_replicate_zero]
    rfl
  have length :
      (-(List.replicate zeros '0' ++ first :: rest).length : Int) =
        -zeros - 1 - rest.length := by
    simp only [List.length_append, List.length_replicate, List.length_cons]
    omega
  have point := exists_isReal_point negative digits_zero (fun _ => rfl) behind
  rw [value, length] at point
  exact point

include digits notZero in
/-- Digits that all stand before the point are filled up with zeros. -/
theorem exists_isReal_filled
    (zeros : Nat) :
    ∃ numeral : Numeral,
      numeral.IsReal negative
        (first :: rest ++ List.replicate zeros '0' ++ ['.', '0'])
        (Nat.ofDigitChars 10 (first :: rest) 0 * 10 ^ (zeros : Int)) := by
  have whole : Digits (first :: rest ++ List.replicate zeros '0') := by
    refine ⟨List.cons_ne_nil _ _, ?_⟩
    intro char member
    rcases List.mem_append.mp member with before | filling
    · exact digits.2 char before
    · exact isDigit_of_mem_replicate_zero filling
  have value :
      (Nat.ofDigitChars 10
            (first :: rest ++ List.replicate zeros '0' ++ ['0']) 0 *
          10 ^ (-(['0'].length : Nat) : Int) : ℚ) =
        Nat.ofDigitChars 10 (first :: rest) 0 * 10 ^ (zeros : Int) := by
    rw [List.append_assoc, ← List.replicate_succ', Nat.ofDigitChars_append,
      Nat.ofDigitChars_replicate_zero]
    push_cast [List.length_singleton]
    rw [zpow_neg_one, zpow_natCast, pow_succ]
    field_simp
  have point :=
    exists_isReal_point negative whole
      (fun head => absurd (Option.some.inj head) notZero) digits_zero
  rw [value] at point
  exact point

include digits notZero in
/-- A point divides the digits. -/
theorem exists_isReal_divided
    {count : Nat}
    (long : count < rest.length) :
    ∃ numeral : Numeral,
      numeral.IsReal negative
        (first :: rest.take count ++ '.' :: rest.drop count)
        (Nat.ofDigitChars 10 (first :: rest) 0 *
          10 ^ (count - rest.length : Int)) := by
  have whole : Digits (first :: rest.take count) :=
    digits.of_subset (List.cons_ne_nil _ _)
      (List.cons_subset_cons first (List.take_subset count rest))
  have behind : Digits (rest.drop count) :=
    digits.of_subset
      (mt List.drop_eq_nil_iff.mp (Nat.not_le.mpr long))
      (List.subset_cons_of_subset first (List.drop_subset count rest))
  have together :
      first :: rest.take count ++ rest.drop count = first :: rest := by
    rw [List.cons_append, List.take_append_drop]
  have power :
      (-(rest.drop count).length : Int) = count - rest.length := by
    rw [List.length_drop]
    omega
  have point :=
    exists_isReal_point negative whole
      (fun head => absurd (Option.some.inj head) notZero) behind
  rw [together, power] at point
  exact point

include digits notZero in
/-- What is written out of a number's digits is a numeral of the number. -/
theorem exists_isReal_positional
    (leading : Int) :
    ∃ numeral : Numeral,
      numeral.IsReal negative (positional (first :: rest) leading)
        (Nat.ofDigitChars 10 (first :: rest) 0 *
          10 ^ (leading - rest.length)) := by
  unfold positional
  split
  · next below =>
      obtain ⟨zeros, rfl⟩ : ∃ zeros : Nat, leading = -zeros - 1 :=
        ⟨(-leading - 1).toNat, by omega⟩
      have same : (-(-(zeros : Int) - 1) - 1).toNat = zeros := by omega
      rw [same]
      exact exists_isReal_below negative digits zeros
  · next above =>
      obtain ⟨count, rfl⟩ := Int.eq_ofNat_of_zero_le (Int.not_lt.mp above)
      simp only [Int.toNat_natCast, List.take_succ_cons, List.drop_succ_cons]
      by_cases short : rest.length ≤ count
      · have zeros : count + 1 - (first :: rest).length = count - rest.length := by
          rw [List.length_cons]
          omega
        have power : (count : Int) - rest.length = (count - rest.length : Nat) := by
          omega
        rw [List.drop_eq_nil_of_le short, List.take_of_length_le short, zeros, power]
        exact exists_isReal_filled negative digits notZero _
      · have long : count < rest.length := Nat.lt_of_not_le short
        have noZeros : count + 1 - (first :: rest).length = 0 := by
          rw [List.length_cons]
          omega
        have present : ¬(rest.drop count).isEmpty = true := by
          rw [List.isEmpty_iff, List.drop_eq_nil_iff]
          exact Nat.not_le.mpr long
        rw [noZeros, List.replicate_zero, List.append_nil, if_neg present]
        exact exists_isReal_divided negative digits notZero long

include digits notZero in
/-- Digits with their power of ten behind are a numeral of the number. -/
theorem exists_isReal_scientific
    (leading : Int) :
    ∃ numeral : Numeral,
      numeral.IsReal negative (scientific (first :: rest) leading)
        (Nat.ofDigitChars 10 (first :: rest) 0 *
          10 ^ (leading - rest.length)) := by
  have whole : Digits [first] :=
    digits.of_subset (List.cons_ne_nil _ _) (by simp)
  have noLeadingZero (zero : [first].head? = some '0') : [first] = ['0'] :=
    absurd (Option.some.inj zero) notZero
  cases rest with
  | nil =>
      exact
        exists_isReal_exponent negative whole noLeadingZero (Or.inl ⟨rfl, rfl⟩)
          leading
  | cons second others =>
      have behind : Digits (second :: others) :=
        digits.of_subset (List.cons_ne_nil _ _) (List.subset_cons_self _ _)
      exact
        exists_isReal_exponent negative whole noLeadingZero
          (Or.inr ⟨behind, rfl⟩) leading

end

/-- A decimal is written as a numeral of its value, in any layout. -/
theorem exists_isReal_magnitude
    (negative : Bool)
    (layout : NumberLayout)
    {number : Decimal}
    (positive : 0 < number.coefficient) :
    ∃ numeral : Numeral,
      numeral.IsReal negative (magnitude layout number) number.value := by
  obtain ⟨first, rest, written, notZero⟩ := Decimal.exists_toDigits_cons positive
  have digits : Digits (first :: rest) := written ▸ digits_natural number.coefficient
  have same :
      (Nat.ofDigitChars 10 (first :: rest) 0 *
          10 ^ (number.exponent + (first :: rest).length - 1 - rest.length) : ℚ) =
        number.value := by
    rw [← written, Nat.ofDigitChars_ten_toDigits, written, Decimal.value]
    congr 2
    push_cast [List.length_cons]
    ring
  rw [magnitude, natural, written, ← same]
  split
  · exact exists_isReal_positional negative digits notZero _
  · exact exists_isReal_scientific negative digits notZero _

/--
A floating point number is written as a numeral of the grammar that is no integer, has
the number's sign and is read as the number.
-/
theorem exists_numeral_real (number : Binary64) :
    ∃ numeral : Numeral,
      numeral.text = real number ∧
        numeral.negative = number.isNegative ∧
        numeral.integer? = none ∧
        number.Reads numeral.magnitude := by
  have prefixed (text : List Char) :
      (if number.isNegative then ['-'] else []) ++ text =
        if number.isNegative then '-' :: text else text := by
    split <;> rfl
  rw [real]
  cases nonzero : number.isZero with
  | true =>
      obtain ⟨numeral, isReal⟩ :=
        exists_isReal_point number.isNegative digits_zero (fun _ => rfl)
          digits_zero
      refine ⟨numeral, ?_, isReal.sign, isReal.noInteger, ?_⟩
      · rw [isReal.form, prefixed]
        rfl
      · have none : numeral.magnitude = number.magnitude := by
          have significand : number.significand = 0 := of_decide_eq_true nonzero
          rw [isReal.meant, Binary64.magnitude, significand]
          simp [Nat.ofDigitChars]
        exact none ▸ number.reads_magnitude
  | false =>
      have reads := Shortest.reads_decimal nonzero
      have positive : 0 < (Shortest.decimal number).coefficient := by
        rw [Nat.pos_iff_ne_zero]
        intro none
        have value := reads.pos nonzero
        simp [Decimal.value, none] at value
      obtain ⟨numeral, isReal⟩ :=
        exists_isReal_magnitude number.isNegative numberLayout positive
      refine ⟨numeral, ?_, isReal.sign, isReal.noInteger, isReal.meant ▸ reads⟩
      rw [isReal.form, prefixed]
      rfl

/-- The least magnitude but zero, with a sign, has an exponent and no fraction. -/
example :
    real ⟨0x8000000000000001, by decide⟩ = "-5e-324".toList := by
  decide +kernel

end Json

end Reply
