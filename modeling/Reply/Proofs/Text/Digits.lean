import Mathlib.Algebra.Group.Nat.Defs
import Mathlib.Data.Nat.Digits.Defs
import Reply.Text.Hex

namespace Reply.Hex

/-!
# Hexadecimal digits read back

Whatever the width, the digits of a word read back as the part of the word that
the width keeps.  The part is therefore determined by its digits.  It is the word
modulo a power of sixteen, so that it has no more digits than the width asks for,
and masking it out takes no shift that a word is too narrow for.
-/

/-- Every digit below sixteen reads back. -/
theorem digitValue?_digitChar
    {place : Nat}
    (small : place < 16) :
    digitValue? place.digitChar = some place := by
  have each :
      ∀ digit : Fin 16,
        digitValue? digit.val.digitChar = some digit.val := by
    decide
  exact each ⟨place, small⟩

/-- Whether a character is one that the digits of a word are written with. -/
def IsDigit (character : Char) : Prop :=
  ('0' ≤ character ∧ character ≤ '9') ∨ ('a' ≤ character ∧ character ≤ 'f')

theorem isDigit_digitChar
    {place : Nat}
    (small : place < 16) :
    IsDigit place.digitChar := by
  have each : ∀ digit : Fin 16, IsDigit digit.val.digitChar := by
    unfold IsDigit
    decide
  exact each ⟨place, small⟩

theorem isDigit_of_mem_toDigits
    {value : Nat}
    {digit : Char}
    (member : digit ∈ Nat.toDigits 16 value) :
    IsDigit digit := by
  induction value using Nat.strongRecOn with
  | ind value inductionHypothesis =>
      by_cases small : value < 16
      · rw [Nat.toDigits_of_lt_base small] at member
        rw [List.mem_singleton.mp member]
        exact isDigit_digitChar small
      · have large : 16 ≤ value := Nat.le_of_not_lt small
        rw [Nat.toDigits_of_base_le (by decide) large] at member
        rcases List.mem_append.mp member with earlier | last
        · exact inductionHypothesis (value / 16) (by omega) earlier
        · rw [List.mem_singleton.mp last]
          exact isDigit_digitChar (Nat.mod_lt _ (by decide))

/-- A word is written in decimal digits and the letters from a to f. -/
theorem isDigit_of_mem_digits
    {width : Nat}
    {word : UInt64}
    {digit : Char}
    (member : digit ∈ digits width word) :
    IsDigit digit := by
  rcases List.mem_append.mp member with zero | later
  · rw [List.eq_of_mem_replicate zero]
    exact isDigit_digitChar (show 0 < 16 by decide)
  · exact isDigit_of_mem_toDigits later

theorem readFrom?_cons
    {digit : Char}
    {place : Nat}
    (isDigit : digitValue? digit = some place)
    (value : Nat)
    (rest : List Char) :
    readFrom? value (digit :: rest) = readFrom? (16 * value + place) rest := by
  rw [readFrom?, isDigit]

theorem readFrom?_append
    (value : Nat)
    (high low : List Char) :
    readFrom? value (high ++ low) =
      (readFrom? value high).bind fun reached => readFrom? reached low := by
  induction high generalizing value with
  | nil => rfl
  | cons digit rest inductionHypothesis =>
      simp only [List.cons_append, readFrom?]
      cases digitValue? digit with
      | none => rfl
      | some place => exact inductionHypothesis _

/-- The digits of a number read back as the number. -/
theorem readFrom?_toDigits (value : Nat) :
    readFrom? 0 (Nat.toDigits 16 value) = some value := by
  induction value using Nat.strongRecOn with
  | ind value inductionHypothesis =>
      by_cases small : value < 16
      · rw [Nat.toDigits_of_lt_base small,
          readFrom?_cons (digitValue?_digitChar small), Nat.mul_zero,
          Nat.zero_add, readFrom?]
      · have large : 16 ≤ value := Nat.le_of_not_lt small
        have remainder : value % 16 < 16 := Nat.mod_lt _ (by decide)
        rw [Nat.toDigits_of_base_le (by decide) large, readFrom?_append,
          inductionHypothesis (value / 16) (by omega), Option.bind_some,
          readFrom?_cons (digitValue?_digitChar remainder), readFrom?,
          Nat.div_add_mod]

/-- Zeros in front add nothing. -/
theorem readFrom?_replicate_zero
    (count : Nat)
    (digits : List Char) :
    readFrom? 0 (List.replicate count '0' ++ digits) =
      readFrom? 0 digits := by
  induction count with
  | zero => rfl
  | succ count inductionHypothesis =>
      have zero : digitValue? '0' = some 0 := by decide
      rw [List.replicate_succ, List.cons_append, readFrom?_cons zero]
      exact inductionHypothesis

/-- The digits of a word read back as the part that the width keeps. -/
theorem readFrom?_digits
    (width : Nat)
    (word : UInt64) :
    readFrom? 0 (digits width word) = some (low width word).toNat := by
  rw [digits, List.leftpad, readFrom?_replicate_zero, readFrom?_toDigits]

/-- The digits of a word are read as the part that the width keeps. -/
theorem read?_digits
    (width : Nat)
    (word : UInt64) :
    read? (digits width word) = some (low width word).toNat := by
  have present : digits width word ≠ [] :=
    List.append_ne_nil_of_right_ne_nil _ Nat.toDigits_ne_nil
  rw [read?, List.isEmpty_eq_false_iff.mpr present]
  exact readFrom?_digits width word

/-- Words with the same digits agree in the part that the width keeps. -/
theorem low_eq_of_digits_eq
    {width : Nat}
    {left right : UInt64}
    (same : digits width left = digits width right) :
    low width left = low width right := by
  have values := congrArg (readFrom? 0) same
  rw [readFrom?_digits, readFrom?_digits] at values
  exact UInt64.toNat.inj (Option.some.inj values)

/-! ## The part that a width keeps -/

/-- The mask for a width has a one in every place that the width keeps. -/
theorem toNat_mask
    {width : Nat}
    (narrow : width < 16) :
    ((1 <<< UInt64.ofNat (4 * width)) - 1 : UInt64).toNat =
      2 ^ (4 * width) - 1 := by
  have each :
      ∀ width : Fin 16,
        ((1 <<< UInt64.ofNat (4 * width.val)) - 1 : UInt64).toNat =
          2 ^ (4 * width.val) - 1 := by
    decide
  exact each ⟨width, narrow⟩

/-- A narrow width keeps the word modulo a power of sixteen, a wide one all of it. -/
theorem toNat_low
    (width : Nat)
    (word : UInt64) :
    (low width word).toNat =
      if width < 16 then word.toNat % 16 ^ width else word.toNat := by
  unfold low
  split
  · next narrow =>
      rw [UInt64.toNat_and, toNat_mask narrow, Nat.and_two_pow_sub_one_eq_mod,
        Nat.pow_mul]
  · rfl

/-- What a width keeps can be written in as many digits. -/
theorem toNat_low_lt
    (width : Nat)
    (word : UInt64) :
    (low width word).toNat < 16 ^ width := by
  rw [toNat_low]
  split
  · exact Nat.mod_lt _ (Nat.pow_pos (by decide))
  · next wide =>
      have bound : 2 ^ 64 ≤ 16 ^ width :=
        Nat.pow_le_pow_right (show 0 < 16 by decide) (Nat.le_of_not_lt wide)
      exact Nat.lt_of_lt_of_le word.toNat_lt bound

/-- A word is written in as many digits as the width asks for, but at least one. -/
theorem length_digits
    (width : Nat)
    (word : UInt64) :
    (digits width word).length = max 1 width := by
  rw [digits, List.length_leftpad]
  have some : 0 < (Nat.toDigits 16 (low width word).toNat).length :=
    Nat.length_toDigits_pos
  cases width with
  | zero =>
      have kept : (low 0 word).toNat = 0 := Nat.lt_one_iff.mp (toNat_low_lt 0 word)
      rw [kept, Nat.toDigits_zero]
      rfl
  | succ width =>
      have fits :
          (Nat.toDigits 16 (low (width + 1) word).toNat).length ≤ width + 1 :=
        (Nat.length_toDigits_le_iff (by decide) width.succ_pos).mpr
          (toNat_low_lt (width + 1) word)
      omega

/-! ## Masking within the width of a word -/

/-- A word shifted to the left, refused where the distance is too long for it. -/
def shiftLeft? (word : UInt64) (distance : Nat) : Option UInt64 :=
  if distance < 64 then some (word <<< UInt64.ofNat distance) else none

/-- The difference of two words, refused where it is below zero. -/
def sub? (minuend subtrahend : UInt64) : Option UInt64 :=
  if subtrahend ≤ minuend then some (minuend - subtrahend) else none

/-- The low places of a word, by operations that may be refused. -/
def low? (digits : Nat) (word : UInt64) : Option UInt64 :=
  if digits < 16 then do
    let bound ← shiftLeft? 1 (4 * digits)
    let mask ← sub? bound 1
    some (word &&& mask)
  else
    some word

/-- Masking is never refused. -/
theorem low?_eq
    (digits : Nat)
    (word : UInt64) :
    low? digits word = some (low digits word) := by
  unfold low? low
  split
  · next narrow =>
      have within : 4 * digits < 64 := by omega
      have each :
          ∀ digits : Fin 16,
            (1 : UInt64) ≤ 1 <<< UInt64.ofNat (4 * digits.val) := by
        decide
      have positive := each ⟨digits, narrow⟩
      simp only [shiftLeft?, sub?, if_pos within, if_pos positive, bind,
        Option.bind]
  · rfl

end Reply.Hex

namespace Reply.Decimal

/-!
## Decimal digits

A number is written with a zero in front only if it is zero.
-/

/-- What is written for a positive number begins with another digit than zero. -/
theorem exists_toDigits_cons
    {value : Nat}
    (positive : 0 < value) :
    ∃ first rest, Nat.toDigits 10 value = first :: rest ∧ first ≠ '0' := by
  induction value using Nat.strongRecOn with
  | ind value inductionHypothesis =>
      by_cases small : value < 10
      · have each :
            ∀ digit : Fin 10, 0 < digit.val → digit.val.digitChar ≠ '0' := by
          decide
        exact
          ⟨_, [], Nat.toDigits_of_lt_base small, each ⟨value, small⟩ positive⟩
      · obtain ⟨first, rest, same, notZero⟩ :=
          inductionHypothesis (value / 10) (by omega) (by omega)
        rw [Nat.toDigits_of_base_le (by decide) (Nat.le_of_not_lt small), same]
        exact ⟨first, _, rfl, notZero⟩

/-- What is written for a number is a zero alone or begins with another digit. -/
theorem toDigits_cases (value : Nat) :
    Nat.toDigits 10 value = ['0'] ∨
      ∃ first rest, Nat.toDigits 10 value = first :: rest ∧ first ≠ '0' := by
  rcases Nat.eq_zero_or_pos value with rfl | positive
  · exact Or.inl rfl
  · exact Or.inr (exists_toDigits_cons positive)

end Reply.Decimal
