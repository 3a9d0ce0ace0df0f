/-!
# Buffers within their blocks

A buffer is the front of a block, which may be longer; of the buffer a part may be
filled.  Readers and writers both keep count of three numbers for that, and nothing
is out of range as long as these are in bounds (`Bounds`).
-/

namespace BufferedStream

/-- A buffer of `size` bytes, at least so many, is filled up to some point.  It fits
into the block, if one is held, and nothing is filled if none is. -/
structure Bounds (least filled size : Nat) (held : Option Nat) : Prop where
  least_le : least ≤ size
  filled_le : filled ≤ size
  size_le : ∀ length, held = some length → size ≤ length
  filled_eq_zero : held = none → filled = 0

/-- A block is held that a buffer of `size` bytes fits into. -/
def Holds (size : Nat) (held : Option Nat) : Prop := ∃ length, held = some length ∧ size ≤ length

variable {least filled size : Nat} {held : Option Nat}

/-- What is filled is part of the block. -/
theorem Bounds.filled_le_extent (h : Bounds least filled size held) : filled ≤ held.getD 0 := by
  cases held with
  | none => exact Nat.le_of_eq (h.filled_eq_zero rfl)
  | some length => exact Nat.le_trans h.filled_le (h.size_le length rfl)

theorem Bounds.holds (h : Bounds least filled size held) (hheld : held ≠ none) :
    Holds size held := by
  cases held with
  | none => exact absurd rfl hheld
  | some length => exact ⟨length, rfl, h.size_le length rfl⟩

theorem Holds.size_le_extent (h : Holds size held) : size ≤ held.getD 0 := by
  obtain ⟨length, rfl, hle⟩ := h
  exact hle

/-- With a block, all that counts is that the buffer is not overfull. -/
theorem Holds.bounds (h : Holds size held) (hleast : least ≤ size) (hfilled : filled ≤ size) :
    Bounds least filled size held := by
  obtain ⟨length, rfl, hle⟩ := h
  refine ⟨hleast, hfilled, ?_, fun hnone => by cases hnone⟩
  intro other hother
  cases hother
  exact hle

end BufferedStream
