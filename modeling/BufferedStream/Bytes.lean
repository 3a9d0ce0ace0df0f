/-!
# Byte strings

Streams carry byte strings, kept as lists of octets.  Besides the list operations only two things are
needed: reading a byte string as if zeros followed it (`zeroPadded`), and laying fresh data over the
front of older contents (`overlay`).
-/

namespace BufferedStream

/-- A finite string of octets. -/
abbrev Bytes := List UInt8

namespace Bytes

/-- The first `n` bytes of `b` followed by zeros without end. -/
def zeroPadded (n : Nat) (b : Bytes) : Bytes :=
  b.take n ++ List.replicate (n - b.length) 0

/-- What a region holding `old` holds once `new` has been written at its front. -/
def overlay (new old : Bytes) : Bytes :=
  new ++ old.drop new.length

/-- The bytes of a text in UTF-8. -/
def ofText (s : String) : Bytes :=
  s.toUTF8.toList

theorem length_zeroPadded (n : Nat) (b : Bytes) : (zeroPadded n b).length = n := by
  simp only [zeroPadded, List.length_append, List.length_take, List.length_replicate]
  omega

end Bytes

end BufferedStream
