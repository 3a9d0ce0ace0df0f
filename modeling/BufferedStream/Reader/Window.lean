import BufferedStream.Stream.Transfer

/-!
# The window of a reader

A reader sees its block in three parts: the bytes it has handed out, the bytes it has yet to hand
out, and what lies behind them.  Handing out moves the border between the first two forwards
(`advance`), pushing back moves it backwards (`retreat`), and sliding drops the first part so that
more room opens behind the second.  All of them keep the contents of the block in order.
-/

namespace BufferedStream

/-- A block seen from its reader. -/
structure Window where
  /-- The bytes handed out, latest first. -/
  past : Bytes := []
  /-- The bytes to hand out next. -/
  unread : Bytes := []
  /-- The bytes behind, up to where only zeros follow. -/
  spare : Bytes := []
  deriving DecidableEq, Repr, Inhabited

namespace Window

/-- The contents of the block, up to where only zeros follow. -/
def contents (w : Window) : Bytes := w.past.reverse ++ (w.unread ++ w.spare)

/-- The window on a block in which nothing has been read. -/
def onto (spare : Bytes) : Window := { spare }

/-- Hand out the next `n` bytes. -/
def advance (n : Nat) (w : Window) : Window :=
  { w with past := (w.unread.take n).reverse ++ w.past, unread := w.unread.drop n }

/-- Hand out everything. -/
def exhaust (w : Window) : Window :=
  { w with past := w.unread.reverse ++ w.past, unread := [] }

/-- Push the last `n` bytes handed out back. -/
def retreat (n : Nat) (w : Window) : Window :=
  { w with past := w.past.drop n, unread := (w.past.take n).reverse ++ w.unread }

/-- Move the unread bytes to the start of the block. -/
def slide (w : Window) : Window where
  unread := w.unread
  spare := w.contents.drop w.unread.length

/-- Forget all bytes, so that the whole block is room. -/
def reset (w : Window) : Window := onto w.contents

/-- Start over with one unread byte at the start of the block. -/
def restart (b : UInt8) (w : Window) : Window where
  unread := [b]
  spare := w.contents.drop 1

/-- Take what a source put into the room behind the unread bytes. -/
def receive (g : Grant) (w : Window) : Window :=
  { w with unread := w.unread ++ g.bytesIn w.spare, spare := (g.fillIn w.spare).drop g.count }

/-- The bytes that an honest source hands out follow the unread ones. -/
theorem unread_receive {g : Grant} (h : g.count = g.data.length) (w : Window) :
    (w.receive g).unread = w.unread ++ g.data := by
  rw [receive, Grant.bytesIn_eq_data h]

end Window

end BufferedStream
