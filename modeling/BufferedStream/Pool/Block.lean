import BufferedStream.Bytes

/-!
# Blocks of memory

A block is a byte string of fixed length.  Blocks are mostly zero behind their front, so only the
front is written down (`front`); all bytes after it are zero.
-/

namespace BufferedStream

/-- A block: its length and the bytes at its front, the others being zero. -/
structure Block where
  length : Nat
  front : Bytes
  front_length_le : front.length ≤ length := by simp

namespace Block

/-- A block of zeros. -/
def zero (length : Nat) : Block := { length, front := [] }

/-- A block of a given length with given bytes at its front; what does not fit is left out. -/
def withFront (length : Nat) (bytes : Bytes) : Block where
  length
  front := bytes.take length
  front_length_le := by simp only [List.length_take]; omega

/-- A block that holds exactly the given bytes. -/
def ofBytes (bytes : Bytes) : Block := { length := bytes.length, front := bytes }

/-- A block with every byte equal to `b`. -/
def filled (length : Nat) (b : UInt8) : Block where
  length
  front := List.replicate length b

/-- The bytes of a block. -/
def bytes (b : Block) : Bytes := Bytes.zeroPadded b.length b.front

/-- Every byte is zero. -/
def isZero (b : Block) : Bool := b.front.all (· == 0)

theorem length_bytes (b : Block) : b.bytes.length = b.length :=
  Bytes.length_zeroPadded b.length b.front

theorem bytes_zero (n : Nat) : (zero n).bytes = List.replicate n 0 := by
  simp [bytes, zero, Bytes.zeroPadded]

/-- A block is zero exactly if its bytes are. -/
theorem isZero_iff (b : Block) : b.isZero = true ↔ ∀ x ∈ b.bytes, x = 0 := by
  have hfront : b.front.take b.length = b.front := List.take_of_length_le b.front_length_le
  simp only [isZero, bytes, Bytes.zeroPadded, hfront, List.all_eq_true, beq_iff_eq,
    List.mem_append, List.mem_replicate]
  constructor
  · rintro h x (hx | ⟨-, hx⟩)
    · exact h x hx
    · exact hx
  · exact fun h x hx => h x (Or.inl hx)

end Block

end BufferedStream
