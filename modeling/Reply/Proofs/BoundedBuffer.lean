import Mathlib.Data.List.Basic
import Reply.BoundedBuffer

namespace Reply.BoundedBuffer

/-!
# Histories of bounded buffers

A buffer is written to, read from and cleared in any order, and writes that do not fit
are refused.  Up to the next clearing, what goes in comes out in order or is still
there: over one use this is an equation on octets, and by induction over all of them.
-/

/-- One thing done to a buffer. -/
inductive Use
  | write (octets : Octets)
  | consume (count : Nat)
  | clear

/-- The buffer after a use; a refused write leaves it as it was. -/
def use (buffer : BoundedBuffer) : Use → BoundedBuffer
  | .write octets =>
      match buffer.write octets with
      | .ok written => written
      | .error _ => buffer
  | .consume count => buffer.consume count
  | .clear => buffer.clear

/-- The octets that a use puts in, none if they are refused. -/
def accepted (buffer : BoundedBuffer) : Use → Octets
  | .write octets =>
      match buffer.write octets with
      | .ok _ => octets
      | .error _ => []
  | _ => []

/-- The octets that a use takes from the front. -/
def dropped (buffer : BoundedBuffer) : Use → Octets
  | .consume count => buffer.contents.take count
  | _ => []

/-- The buffer after uses, one after the other. -/
def useAll (buffer : BoundedBuffer) (uses : List Use) : BoundedBuffer :=
  uses.foldl use buffer

/-- The octets that uses put in, in order. -/
def acceptedAll (buffer : BoundedBuffer) : List Use → Octets
  | [] => []
  | first :: rest => buffer.accepted first ++ (buffer.use first).acceptedAll rest

/-- The octets that uses take from the front, in order. -/
def droppedAll (buffer : BoundedBuffer) : List Use → Octets
  | [] => []
  | first :: rest => buffer.dropped first ++ (buffer.use first).droppedAll rest

/-! ## One use -/

section

variable {buffer : BoundedBuffer}

/-- A write is taken if and only if its octets fit. -/
theorem write_eq_ok_iff
    {octets : Octets}
    {written : BoundedBuffer} :
    buffer.write octets = .ok written ↔
      octets.length ≤ buffer.remaining ∧
        written = { buffer with contents := buffer.contents ++ octets } := by
  by_cases fits : octets.length ≤ buffer.remaining
  · rw [write_of_le fits, Except.ok.injEq]
    constructor
    · intro same
      exact ⟨fits, same.symm⟩
    · intro both
      exact both.2.symm
  · rw [write_of_lt (Nat.lt_of_not_le fits)]
    constructor
    · intro same
      contradiction
    · intro both
      exact absurd both.1 fits

theorem use_write_of_le
    {octets : Octets}
    (fits : octets.length ≤ buffer.remaining) :
    buffer.use (.write octets) =
      { buffer with contents := buffer.contents ++ octets } := by
  simp only [use, write_of_le fits]

theorem use_write_of_lt
    {octets : Octets}
    (exceeds : buffer.remaining < octets.length) :
    buffer.use (.write octets) = buffer := by
  simp only [use, write_of_lt exceeds]

end

@[simp] theorem capacity_use
    (buffer : BoundedBuffer)
    (step : Use) :
    (buffer.use step).capacity = buffer.capacity := by
  cases step with
  | write octets =>
      by_cases fits : octets.length ≤ buffer.remaining
      · rw [use_write_of_le fits]
      · rw [use_write_of_lt (Nat.lt_of_not_le fits)]
  | consume count => rfl
  | clear => rfl

/-- A use leaves no more in a buffer than its capacity. -/
theorem length_use_le
    {buffer : BoundedBuffer}
    (within : buffer.length ≤ buffer.capacity)
    (step : Use) :
    (buffer.use step).length ≤ buffer.capacity := by
  cases step with
  | write octets =>
      by_cases fits : octets.length ≤ buffer.remaining
      · rw [use_write_of_le fits]
        simp only [length, List.length_append]
        exact Nat.add_le_of_le_sub' within fits
      · rw [use_write_of_lt (Nat.lt_of_not_le fits)]
        exact within
  | consume count =>
      have fewer : (buffer.contents.drop count).length ≤ buffer.length :=
        (List.drop_sublist count _).length_le
      exact Nat.le_trans fewer within
  | clear => exact Nat.zero_le _

/-- What is there and goes in comes out or stays, unless the buffer is cleared. -/
theorem balance_use
    (buffer : BoundedBuffer)
    {step : Use}
    (kept : step ≠ .clear) :
    buffer.contents ++ buffer.accepted step =
      buffer.dropped step ++ (buffer.use step).contents := by
  cases step with
  | write octets =>
      by_cases fits : octets.length ≤ buffer.remaining
      · simp only [accepted, dropped, use, write_of_le fits, List.nil_append]
      · simp only [accepted, dropped, use, write_of_lt (Nat.lt_of_not_le fits),
          List.append_nil, List.nil_append]
  | consume count =>
      simp only [accepted, dropped, use, consume, List.append_nil,
        List.take_append_drop]
  | clear => contradiction

/-! ## Uses one after the other -/

theorem useAll_append
    (buffer : BoundedBuffer)
    (first second : List Use) :
    buffer.useAll (first ++ second) = (buffer.useAll first).useAll second :=
  List.foldl_append

/-- Uses keep the capacity and never fill a buffer beyond it. -/
theorem useAll_within
    {buffer : BoundedBuffer}
    (within : buffer.length ≤ buffer.capacity)
    (uses : List Use) :
    (buffer.useAll uses).capacity = buffer.capacity ∧
      (buffer.useAll uses).length ≤ buffer.capacity := by
  induction uses generalizing buffer with
  | nil => exact ⟨rfl, within⟩
  | cons step rest inductionHypothesis =>
      have next : (buffer.use step).length ≤ (buffer.use step).capacity := by
        rw [capacity_use]
        exact length_use_le within step
      have later := inductionHypothesis next
      rw [capacity_use] at later
      exact later

/-- Without clearing, what is there and goes in comes out or stays. -/
theorem balance_useAll
    (buffer : BoundedBuffer)
    {uses : List Use}
    (kept : .clear ∉ uses) :
    buffer.contents ++ buffer.acceptedAll uses =
      buffer.droppedAll uses ++ (buffer.useAll uses).contents := by
  induction uses generalizing buffer with
  | nil => exact List.append_nil _
  | cons step rest inductionHypothesis =>
      obtain ⟨other, later⟩ := not_or.mp (List.mem_cons.not.mp kept)
      have first := buffer.balance_use (Ne.symm other)
      have others := inductionHypothesis (buffer.use step) later
      calc
        buffer.contents ++ buffer.acceptedAll (step :: rest)
            = buffer.contents ++ buffer.accepted step ++
                (buffer.use step).acceptedAll rest := by
              rw [acceptedAll, List.append_assoc]
        _ = buffer.dropped step ++
                ((buffer.use step).contents ++
                  (buffer.use step).acceptedAll rest) := by
              rw [first, List.append_assoc]
        _ = buffer.droppedAll (step :: rest) ++
                (buffer.useAll (step :: rest)).contents := by
              rw [others, droppedAll, List.append_assoc]
              rfl

/-- Octets that fit all together fit in pieces, however they are cut. -/
theorem useAll_pieces
    {buffer : BoundedBuffer}
    {pieces : List Octets}
    (fits : pieces.flatten.length ≤ buffer.remaining) :
    buffer.useAll (pieces.map .write) = buffer.use (.write pieces.flatten) := by
  rw [use_write_of_le fits]
  induction pieces generalizing buffer with
  | nil =>
      rw [List.flatten_nil, List.append_nil]
      rfl
  | cons piece rest inductionHypothesis =>
      rw [List.flatten_cons, List.length_append] at fits
      have first : piece.length ≤ buffer.remaining :=
        Nat.le_trans (Nat.le_add_right _ _) fits
      have others :
          rest.flatten.length ≤ (buffer.use (.write piece)).remaining := by
        rw [use_write_of_le first]
        simp only [remaining, length, List.length_append] at fits ⊢
        omega
      refine (inductionHypothesis others).trans ?_
      rw [use_write_of_le first, List.flatten_cons, List.append_assoc]

/-! ## Queues -/

/-- What a queue of octets that knows its bounds does at one moment. -/
structure Fifo (buffer : BoundedBuffer) : Prop where
  length_le : buffer.length ≤ buffer.capacity
  length_add_remaining : buffer.length + buffer.remaining = buffer.capacity
  write_iff :
    ∀ octets written,
      buffer.write octets = .ok written ↔
        octets.length ≤ buffer.remaining ∧
          written = { buffer with contents := buffer.contents ++ octets }
  overflow :
    ∀ octets,
      buffer.remaining < octets.length →
        buffer.write octets =
            .error (.overflow octets.length buffer.remaining) ∧
          buffer.use (.write octets) = buffer
  pieces :
    ∀ pieces : List Octets,
      pieces.flatten.length ≤ buffer.remaining →
        buffer.useAll (pieces.map .write) =
          buffer.use (.write pieces.flatten)
  consume :
    ∀ count,
      (buffer.dropped (.consume count)).length = min count buffer.length ∧
        buffer.contents =
          buffer.dropped (.consume count) ++ (buffer.consume count).contents

/-- A buffer that holds no more than its capacity is a queue. -/
theorem fifo_of_le
    {buffer : BoundedBuffer}
    (within : buffer.length ≤ buffer.capacity) :
    buffer.Fifo where
  length_le := within
  length_add_remaining := Nat.add_sub_cancel' within
  write_iff _ _ := write_eq_ok_iff
  overflow _ exceeds := ⟨write_of_lt exceeds, use_write_of_lt exceeds⟩
  pieces _ fits := useAll_pieces fits
  consume count := ⟨List.length_take, (List.take_append_drop count _).symm⟩

/-- A new buffer stays a queue of its capacity whatever is done to it. -/
theorem fifo_useAll
    (capacity : Nat)
    (uses : List Use) :
    ((ofCapacity capacity).useAll uses).capacity = capacity ∧
      ((ofCapacity capacity).useAll uses).Fifo := by
  have fresh : (ofCapacity capacity).length ≤ (ofCapacity capacity).capacity :=
    Nat.zero_le _
  obtain ⟨same, within⟩ := useAll_within fresh uses
  exact ⟨same, fifo_of_le (same.symm ▸ within)⟩

/--
What a new or cleared buffer took in since then, unless cleared again, is what came
out of it, in order, followed by what it holds.
-/
theorem balance_since
    {buffer : BoundedBuffer}
    (empty : buffer.contents = [])
    {uses : List Use}
    (kept : .clear ∉ uses) :
    buffer.acceptedAll uses =
      buffer.droppedAll uses ++ (buffer.useAll uses).contents := by
  have balance := buffer.balance_useAll kept
  rwa [empty, List.nil_append] at balance

end Reply.BoundedBuffer
