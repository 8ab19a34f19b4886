import Reply.Number.Binary64

namespace Reply

/-!
# Shortest decimals

The decimal with the fewest digits that reads back as a given finite binary64
number, and of those the nearest.  A magnitude is significand · 2^exponent; the
decimals that round to it fill a span around it, ends included exactly when the
significand is even.  On the grid of decimals with a given number of digits,
only the two neighbours of the magnitude can be nearest, so these are tried for
one digit, two digits, and so on.  All arithmetic is exact.
-/

/-- The number coefficient · 10^exponent. -/
structure Decimal where
  coefficient : Nat
  exponent : Int
  deriving DecidableEq, Repr

namespace Shortest

/-- A magnitude and the ends of its span, all multiplied by 10^scale. -/
structure Span where
  value : Nat
  lower : Nat
  upper : Nat
  closed : Bool
  scale : Nat

/-- The span of decimals that round to a number's magnitude. -/
def span (number : Binary64) : Span :=
  let quarters := 4 * number.significand
  let below := if number.isLowestOfBinade then 1 else 2
  let power := number.binaryExponent - 2
  let scale := (-power).toNat
  let unit := if 0 ≤ power then Nat.pow 2 power.toNat else Nat.pow 5 scale
  {
    value := quarters * unit
    lower := (quarters - below) * unit
    upper := (quarters + 2) * unit
    closed := number.significand % 2 == 0
    scale := scale
  }

/-- Whether a scaled decimal lies in a span. -/
def Span.holds (range : Span) (point : Nat) : Bool :=
  if range.closed then
    range.lower ≤ point && point ≤ range.upper
  else
    range.lower < point && point < range.upper

/-- The neighbour nearer to the magnitude; of two equally near, the even one. -/
def Span.nearer (range : Span) (step below : Nat) : Nat :=
  let beneath := range.value - below * step
  let above := (below + 1) * step - range.value
  if beneath < above then below
  else if above < beneath then below + 1
  else if below % 2 = 0 then below
  else below + 1

/-- The best decimal on the grid with steps of 10^drop, if one is in the span. -/
def Span.onGrid? (range : Span) (drop : Nat) : Option Decimal :=
  let step := Nat.pow 10 drop
  let below := range.value / step
  let chosen :=
    match range.holds (below * step), range.holds ((below + 1) * step) with
    | true, true => some (range.nearer step below)
    | true, false => some below
    | false, true => some (below + 1)
    | false, false => none
  chosen.map fun coefficient => ⟨coefficient, drop - range.scale⟩

/-- The first hit on grids of ever smaller steps, down to the exact value. -/
def Span.search (range : Span) : Nat → Decimal
  | 0 => (range.onGrid? 0).getD ⟨range.value, -range.scale⟩
  | drop + 1 =>
      match range.onGrid? (drop + 1) with
      | some found => found
      | none => range.search drop

/-- Divide out factors of ten, at most as many as given. -/
def stripZeros : Nat → Decimal → Decimal
  | 0, number => number
  | limit + 1, number =>
      if number.coefficient % 10 = 0 then
        stripZeros limit ⟨number.coefficient / 10, number.exponent + 1⟩
      else
        number

/-- The shortest decimal that reads back as a non-zero number's magnitude. -/
def decimal (number : Binary64) : Decimal :=
  let range := span number
  let places := (Nat.toDigits 10 range.value).length
  let found := range.search (places - 1)
  stripZeros (Nat.toDigits 10 found.coefficient).length found

end Shortest

end Reply
