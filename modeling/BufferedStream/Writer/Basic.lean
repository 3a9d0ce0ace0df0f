import BufferedStream.Error.Conversion
import BufferedStream.Error.Message
import BufferedStream.Stream.Capability
import BufferedStream.Text.Rune

/-!
# Buffered writers

A writer collects bytes in front of a sink and passes them on in larger pieces.  Its block comes from
a pool when it is first needed and may go back whenever nothing is queued.

A failure of the sink is *latched* for good: from then on nothing is accepted, the sink is not called
again, and every operation reports the same error.
-/

namespace BufferedStream

/-- A buffered writer over a sink. -/
structure Writer (κ : Type) where
  sink : κ
  /-- The size of the buffer, at least one byte. -/
  size : Nat
  /-- The pool that blocks come from. -/
  pool : PoolId
  /-- The bytes accepted and not yet passed on. -/
  queued : Bytes := []
  /-- What the block holds behind the queued bytes, up to where only zeros follow. -/
  spare : Bytes := []
  /-- The length of the block held, if one is. -/
  held : Option Nat := none
  /-- The latched error. -/
  fault : Option Error := none

namespace Writer

variable {κ : Type}

/-! ## Making a writer -/

/-- A writer whose buffer has the given size; none given selects the pool's canonical size. -/
def withCapacity (sink : κ) (size : Nat) (pool : PoolId) : Act (Writer κ) := do
  let canonical ← Act.bufferSize pool
  return { sink, size := max (if size = 0 then canonical else size) 1, pool }

/-- A writer with a buffer of its pool's canonical size. -/
def ofSink (sink : κ) (pool : PoolId) : Act (Writer κ) := withCapacity sink 0 pool

/-- The number of bytes queued. -/
def buffered (w : Writer κ) : Nat := w.queued.length

/-- The room left in the buffer. -/
def available (w : Writer κ) : Nat := w.size - w.buffered

/-! ## The block -/

/-- The contents of the block, up to where only zeros follow. -/
def contents (w : Writer κ) : Bytes := w.queued ++ w.spare

/-- Take a block if none is held. -/
def acquire (w : Writer κ) : Act (Writer κ) :=
  match w.held with
  | some _ => pure w
  | none => do
    let b ← Act.acquire w.pool w.size
    return { w with held := some b.length, spare := b.front }

/-- The block held, with its contents. -/
def block? (w : Writer κ) : Option Block :=
  w.held.map fun length => Block.withFront length w.contents

/-- Hand the block back while nothing is queued.  Only a block of the pool's canonical length goes
back, and it stays if the pool turns it away. -/
def settle (w : Writer κ) : Act (Writer κ) := do
  if w.queued = [] then
    match w.block? with
    | none => return w
    | some b =>
      if b.length = (← Act.bufferSize w.pool) then
        match (← Act.release w.pool b) with
        | none => return { w with held := none, spare := [] }
        | some _ => return w
      else return w
  else return w

/-- Give the block to the pool, whatever it holds. -/
def surrender (w : Writer κ) : Act Unit := do
  if let some b := w.block? then
    let _ ← Act.release w.pool b

/-- Queue bytes that fit into the room left. -/
def enqueue (b : Bytes) (w : Writer κ) : Writer κ :=
  { w with queued := w.queued ++ b, spare := w.spare.drop b.length }

/-- Drop the first `n` queued bytes, which the sink has taken; the others move to the front. -/
def dequeue (n : Nat) (w : Writer κ) : Writer κ :=
  { w with queued := w.queued.drop n, spare := w.contents.drop (w.queued.length - n) }

/-! ## Passing bytes on -/

section Flush

variable [ByteSink κ]

/-- Offer bytes to the sink; taking fewer without a reason is a short write.  A failure is
latched. -/
def pass (b : Bytes) (w : Writer κ) : Act (Nat × Writer κ) := do
  let offered := b.length
  let (receipt, sink) ← ByteSink.write w.sink b
  Act.require (receipt.count ≤ offered) (.sinkOverrun receipt.count offered)
  let w := { w with sink }
  match receipt.fault with
  | some e => return (receipt.count, { w with fault := some e })
  | none =>
    if receipt.count < offered then
      return (receipt.count, { w with fault := some .shortWrite })
    else return (receipt.count, w)

/-- Pass the queued bytes on; the block is kept. -/
def flushQueue (w : Writer κ) : Act (Writer κ) := do
  if w.fault.isSome || w.queued = [] then
    return w
  let (taken, w) ← w.pass w.queued
  return w.dequeue taken

/-- Pass the queued bytes on unless there is room for `n` more. -/
def makeRoom (n : Nat) (w : Writer κ) : Act (Writer κ) :=
  if w.available < n then w.flushQueue else pure w

/-- The outcome of an operation on a writer: its latched error or a value. -/
def outcome {α : Type} (a : α) (w : Writer κ) : Except Error α :=
  match w.fault with
  | some e => .error e
  | none => .ok a

/-- Pass the queued bytes on and let an idle block go back to the pool. -/
def flush (w : Writer κ) : Act (Except Error Unit × Writer κ) := do
  let w ← w.flushQueue
  let result := w.outcome ()
  return (result, ← w.settle)

end Flush

/-! ## Changing hands -/

/-- Move to a larger buffer; queued bytes and the latched error come along. -/
def regrow (size : Nat) (pool : PoolId) (w : Writer κ) : Act (Writer κ) := do
  let grown ← withCapacity w.sink size pool
  let grown := { grown with fault := w.fault }
  let grown ←
    if w.held.isSome && w.queued ≠ [] then do
      let grown ← grown.acquire
      pure (grown.enqueue w.queued)
    else pure grown
  w.surrender
  return grown

/-- A writer over the same sink with a buffer of at least the given size; a writer that has one
already is kept. -/
def adapt (size : Nat) (pool : PoolId) (w : Writer κ) : Act (Writer κ) :=
  if size ≤ w.size then pure w else w.regrow size pool

/-- Flush and give up the writer for its sink; if that fails the writer is kept. -/
def intoSink [ByteSink κ] (w : Writer κ) : Act (Except (Error × Writer κ) κ) := do
  let (result, w) ← w.flush
  match result with
  | .error e => return .error (e, w)
  | .ok () =>
    w.surrender
    return .ok w.sink

/-- The writer on one line. -/
def text (w : Writer κ) : String :=
  "Writer \x7b size: " ++ toString w.size ++ ", buffered: " ++ toString w.buffered ++ ", err: "
    ++ latchText w.fault ++ ", .. \x7d"

end Writer

end BufferedStream
