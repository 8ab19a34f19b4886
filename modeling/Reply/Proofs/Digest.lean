import Mathlib.Data.List.Basic
import Reply.Digest

namespace Reply

/-!
# A single edited octet shows in the digest

The low half of a digest depends only on the low half of the state before it.
Each round permutes these halves: it adds the octet bitwise and multiplies by an
odd number, which has an inverse modulo 2^32.  Two runs of octets that differ at
one place part there, and what follows cannot bring them together again.
-/

/-- Two runs of one length that differ at exactly one place. -/
inductive DifferOnce : Octets → Octets → Prop
  | here
      {left right : UInt8}
      (different : left ≠ right)
      (rest : Octets) :
      DifferOnce (left :: rest) (right :: rest)
  | later
      (octet : UInt8)
      {left right : Octets}
      (differ : DifferOnce left right) :
      DifferOnce (octet :: left) (octet :: right)

namespace DifferOnce

theorem length_eq
    {left right : Octets}
    (differ : DifferOnce left right) :
    left.length = right.length := by
  induction differ with
  | here different rest => rfl
  | later octet differ inductionHypothesis =>
      exact congrArg Nat.succ inductionHypothesis

theorem append_left
    (before : Octets)
    {left right : Octets}
    (differ : DifferOnce left right) :
    DifferOnce (before ++ left) (before ++ right) := by
  induction before with
  | nil => exact differ
  | cons octet rest inductionHypothesis =>
      exact .later octet inductionHypothesis

theorem append_right
    {left right : Octets}
    (differ : DifferOnce left right)
    (after : Octets) :
    DifferOnce (left ++ after) (right ++ after) := by
  induction differ with
  | here different rest => exact .here different (rest ++ after)
  | later octet differ inductionHypothesis =>
      exact .later octet inductionHypothesis

/-- Runs of one length that disagree at a single place differ once. -/
theorem of_existsUnique
    {left right : Octets}
    (lengths : left.length = right.length)
    (differ : ∃! place : Nat, left[place]? ≠ right[place]?) :
    DifferOnce left right := by
  induction left generalizing right with
  | nil =>
      have empty : right = [] := List.length_eq_zero_iff.mp lengths.symm
      subst empty
      obtain ⟨place, different, -⟩ := differ
      exact (different rfl).elim
  | cons octet left inductionHypothesis =>
      cases right with
      | nil => contradiction
      | cons other right =>
          obtain ⟨place, different, only⟩ := differ
          cases place with
          | zero =>
              have heads : octet ≠ other := by
                intro same
                exact different (by simp [same])
              have tails : left = right := by
                apply List.ext_getElem?
                intro place
                by_contra apart
                have first := only (place + 1) (by simpa using apart)
                contradiction
              rw [tails]
              exact .here heads right
          | succ place =>
              have heads : octet = other := by
                by_contra apart
                have first := only 0 (by simpa using apart)
                contradiction
              rw [heads]
              apply DifferOnce.later
              apply inductionHypothesis (Nat.succ.inj lengths)
              refine ⟨place, by simpa using different, ?_⟩
              intro another apart
              exact Nat.succ.inj
                (only (another + 1) (by simpa using apart))

end DifferOnce

namespace Digest

/-- The inverse of the factor modulo 2^32. -/
def inverse : UInt32 :=
  0xaff6957b

/-- The low half of the factor has an inverse. -/
theorem factor_mul_inverse : factor.toUInt32 * inverse = 1 := by
  decide

/-- Absorbing an octet acts on the low half of the state alone. -/
theorem toUInt32_absorb
    (state : UInt64)
    (octet : UInt8) :
    (absorb state octet).toUInt32 =
      (state.toUInt32 ^^^ octet.toUInt64.toUInt32) * factor.toUInt32 := by
  rw [absorb, UInt64.toUInt32_mul, UInt64.toUInt32_xor]

/-- Multiplying by the low half of the factor loses nothing. -/
theorem mul_factor_injective
    {left right : UInt32}
    (same : left * factor.toUInt32 = right * factor.toUInt32) :
    left = right := by
  have scaled := congrArg (· * inverse) same
  simpa only [UInt32.mul_assoc, factor_mul_inverse, UInt32.mul_one] using scaled

/-- Low halves that agree after an octet agreed before it. -/
theorem toUInt32_absorb_injective
    {left right : UInt64}
    {octet : UInt8}
    (same : (absorb left octet).toUInt32 = (absorb right octet).toUInt32) :
    left.toUInt32 = right.toUInt32 := by
  rw [toUInt32_absorb, toUInt32_absorb] at same
  exact (UInt32.xor_left_inj _).mp (mul_factor_injective same)

/-- Distinct octets take a state to distinct low halves. -/
theorem octet_eq_of_toUInt32_absorb
    {state : UInt64}
    {left right : UInt8}
    (same : (absorb state left).toUInt32 = (absorb state right).toUInt32) :
    left = right := by
  rw [toUInt32_absorb, toUInt32_absorb] at same
  have octets := (UInt32.xor_right_inj _).mp (mul_factor_injective same)
  have values := congrArg UInt32.toNat octets
  simp only [UInt64.toNat_toUInt32, UInt8.toNat_toUInt64] at values
  have leftSmall := left.toNat_lt
  have rightSmall := right.toNat_lt
  apply UInt8.toNat.inj
  omega

/-- Low halves that part stay apart, whatever is absorbed after them. -/
theorem toUInt32_absorbAll_injective
    {left right : UInt64}
    {octets : Octets}
    (same :
      (absorbAll left octets).toUInt32 = (absorbAll right octets).toUInt32) :
    left.toUInt32 = right.toUInt32 := by
  induction octets generalizing left right with
  | nil => exact same
  | cons octet rest inductionHypothesis =>
      exact toUInt32_absorb_injective (inductionHypothesis same)

/-- Runs that differ once take a state to distinct low halves. -/
theorem toUInt32_absorbAll_ne
    {left right : Octets}
    (differ : DifferOnce left right)
    (state : UInt64) :
    (absorbAll state left).toUInt32 ≠ (absorbAll state right).toUInt32 := by
  induction differ generalizing state with
  | here different rest =>
      intro same
      exact different
        (octet_eq_of_toUInt32_absorb (toUInt32_absorbAll_injective same))
  | later octet differ inductionHypothesis =>
      exact inductionHypothesis (absorb state octet)

end Digest

end Reply
