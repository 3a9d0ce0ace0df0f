import BufferedStream.Bytes
import BufferedStream.Error.Basic

/-!
# Outcomes of stream calls

A source and a sink report progress and failure together: a source may hand out bytes and announce
in the same call that no more will follow.

A source is offered room, and puts bytes at its front.  What a source reports (`count`) is kept apart
from the bytes it has put there (`data`), since a source may claim bytes that it never wrote.  Such
bytes are whatever the room held before, so a room comes with its contents.
-/

namespace BufferedStream

/-- The room offered in one read: its size, and what it holds, up to where only zeros follow. -/
structure Room where
  size : Nat
  contents : Bytes := []
  deriving DecidableEq, Repr, Inhabited

/-- What one call put into the offered room, and how many bytes it claims to have put there. -/
structure Grant where
  data : Bytes
  count : Nat
  deriving DecidableEq, Repr, Inhabited

/-- The outcome of one read: a grant, and why nothing more will follow for now. -/
structure Reading extends Grant where
  fault : Option Error := none
  deriving Repr, Inhabited

/-- The outcome of a write or of a whole transfer: the number of bytes moved, and why not more. -/
structure Receipt where
  count : Nat
  fault : Option Error := none
  deriving Repr, Inhabited

/-- Bytes delivered, and why not more. -/
structure Passage where
  bytes : Bytes
  fault : Option Error := none
  deriving Repr, Inhabited

/-- The reading that delivers just these bytes. -/
def Reading.ofBytes (b : Bytes) (fault : Option Error) : Reading :=
  { data := b, count := b.length, fault }

namespace Grant

/-- What a room that held `old` holds after the call. -/
def fillIn (g : Grant) (old : Bytes) : Bytes := Bytes.overlay g.data old

/-- The bytes that the caller takes as delivered, in a room that held `old`. -/
def bytesIn (g : Grant) (old : Bytes) : Bytes := (g.fillIn old).zeroPadded g.count

/-- The bytes that the caller takes as delivered, in a room that held zeros. -/
def bytes (g : Grant) : Bytes := g.bytesIn []

/-- Who reports just what was put into the room delivers that, whatever the room held. -/
theorem bytesIn_eq_data {g : Grant} (h : g.count = g.data.length) (old : Bytes) :
    g.bytesIn old = g.data := by
  simp [bytesIn, fillIn, Bytes.overlay, Bytes.zeroPadded, h]

end Grant

end BufferedStream
