import BufferedStream.Proofs.Safety.Guard
import BufferedStream.Proofs.Writer.Operation

/-!
# A writer that checks what it touches

In its block a writer touches the bytes queued at the front and the room behind
them, up to the end of the buffer.  Here every operation is written down once more,
with a check wherever a part of the block is taken (`front`, `spare`), the room
left worked out (`room`), or bytes outside the block cut.  What else happens is left
to the operation itself.

* `Writer.Checked.perform` — the checked operations.
-/

namespace BufferedStream.Writer

open Guarded (of check)

variable {ν σ κ : Type}

/-- The length of the block; without one nothing can be touched. -/
def extent (w : Writer κ) : Nat := w.held.getD 0

namespace Checked

/-! ## Checks -/

/-- Work out the room left in the buffer. -/
def room (w : Writer κ) : Guarded Unit := check (w.buffered ≤ w.size)

/-- Touch the first `n` bytes of the block. -/
def front (n : Nat) (w : Writer κ) : Guarded Unit := check (n ≤ w.extent)

/-- Touch the room left in the block. -/
def spare (w : Writer κ) : Guarded Unit := check (w.buffered ≤ w.size ∧ w.size ≤ w.extent)

/-! ## Passing bytes on -/

section Flush

variable [ByteSink κ]

/-- The sink takes no more of the queued bytes than there are. -/
def flushQueue (w : Writer κ) : Guarded (Writer κ) := do
  if w.fault.isSome || w.queued = [] then
    return w
  front w.buffered w
  let (taken, w) ← of (w.pass w.queued)
  check (taken ≤ w.buffered)
  return w.dequeue taken

def makeRoom (n : Nat) (w : Writer κ) : Guarded (Writer κ) := do
  room w
  if w.available < n then flushQueue w else pure w

def flush (w : Writer κ) : Guarded (Except Error Unit × Writer κ) := do
  let w ← flushQueue w
  let result := w.outcome ()
  return (result, ← of w.settle)

end Flush

/-! ## Changing hands -/

/-- The queued bytes are copied to the start of the larger block. -/
def regrow (size : Nat) (pool : PoolId) (w : Writer κ) : Guarded (Writer κ) := do
  let grown ← of (withCapacity w.sink size pool)
  let grown := { grown with fault := w.fault }
  let grown ←
    if w.held.isSome && w.queued ≠ [] then do
      let grown ← of grown.acquire
      spare grown
      check (w.buffered ≤ grown.available)
      front w.buffered w
      pure (grown.enqueue w.queued)
    else pure grown
  of w.surrender
  return grown

def adapt (size : Nat) (pool : PoolId) (w : Writer κ) : Guarded (Writer κ) :=
  if size ≤ w.size then pure w else regrow size pool w

def intoSink [ByteSink κ] (w : Writer κ) : Guarded (Except (Error × Writer κ) κ) := do
  let (result, w) ← flush w
  match result with
  | .error e => return .error (e, w)
  | .ok () =>
    of w.surrender
    return .ok w.sink

/-! ## Writing -/

/-- The bytes taken are cut from those offered and from the room left. -/
def copyIn (b : Bytes) (w : Writer κ) : Guarded (Nat × Writer κ) := do
  if b = [] then
    return (0, w)
  let w ← of w.acquire
  spare w
  let taken := b.take w.available
  check (taken.length ≤ w.available ∧ taken.length ≤ b.length)
  return (taken.length, w.enqueue taken)

section Write

variable [ByteSink κ]

def writeRound (b : Bytes) (w : Writer κ) : Guarded (Nat × Writer κ) := do
  if w.queued = [] then
    of (w.pass b)
  else
    let (n, w) ← copyIn b w
    return (n, ← flushQueue w)

/-- What a round has taken is cut from the bytes offered. -/
def writeRounds :
    (rounds total : Nat) → Bytes → Writer κ → Guarded (Nat × Bytes × Writer κ)
  | 0, total, b, w => return (total, b, w)
  | rounds + 1, total, b, w => do
    room w
    if w.available < b.length && w.fault.isNone then
      let (n, w) ← writeRound b w
      check (n ≤ b.length)
      writeRounds rounds (total + n) (b.drop n) w
    else return (total, b, w)

def write (b : Bytes) (w : Writer κ) : Guarded (Receipt × Writer κ) := do
  let (total, b, w) ← writeRounds 2 0 b w
  match w.fault with
  | some e => return (⟨total, some e⟩, w)
  | none =>
    let (n, w) ← copyIn b w
    return (⟨total + n, none⟩, w)

/-- The byte goes to the start of the room left. -/
def writeByte (b : UInt8) (w : Writer κ) : Guarded (Except Error Unit × Writer κ) := do
  let w ← makeRoom 1 w
  match w.fault with
  | some e => return (.error e, w)
  | none =>
    let w ← of w.acquire
    spare w
    check (0 < w.available)
    return (.ok (), w.enqueue [b])

/-- The character is encoded into the room left. -/
def writeRune (c : Char) (w : Writer κ) : Guarded (Except Error Nat × Writer κ) := do
  if c.toNat < Rune.selfBound.toNat then
    let (result, w) ← writeByte c.toNat.toUInt8 w
    return (result.map fun () => 1, w)
  let w ← makeRoom Rune.maxWidth w
  match w.fault with
  | some e => return (.error e, w)
  | none =>
    let encoded := Rune.encode c
    room w
    if w.available < Rune.maxWidth then
      let (receipt, w) ← write encoded w
      of do
        match receipt.fault with
        | some e => return (.error e, w)
        | none => return (.ok receipt.count, w)
    else
      let w ← of w.acquire
      spare w
      check (encoded.length ≤ w.available)
      return (.ok encoded.length, w.enqueue encoded)

def plainWrite (b : Bytes) (w : Writer κ) : Guarded (Except IoError Nat × Writer κ) := do
  let (receipt, w) ← write b w
  of do
    if 0 < receipt.count then
      return (.ok receipt.count, w)
    match receipt.fault with
    | none => return (.ok 0, w)
    | some e => return (.error (e.toIo true), w)

def plainFlush (w : Writer κ) : Guarded (Except IoError Unit × Writer κ) := do
  let (result, w) ← flush w
  return (intoIo true result, w)

end Write

/-! ## Drawing a source -/

section Draw

variable [ByteSource σ]

/-- The source is offered the room left. -/
def draw (w : Writer κ) (s : σ) : Guarded (Reading × Writer κ × σ) := do
  let w ← of w.acquire
  spare w
  let offered := w.available
  let (g, s) ← of (ByteSource.read s ⟨offered, w.spare⟩)
  of (Act.require (g.count ≤ offered) (.sourceOverrun g.count offered))
  return (g, { w with
    queued := w.queued ++ g.bytesIn w.spare
    spare := (g.fillIn w.spare).drop g.count }, s)

def concludeTransfer [ByteSink κ] (total : Nat) (fault : Option Error) (w : Writer κ) :
    Guarded (Receipt × Writer κ) := do
  match fault with
  | some .eof =>
    let w ← makeRoom 1 w
    return (⟨total, w.fault⟩, w)
  | fault => return (⟨total, fault⟩, w)

def drawRounds [ByteSink κ] :
    (rounds total : Nat) → Writer κ → σ → Guarded (Receipt × Writer κ × σ)
  | 0, _, _, _ => of (throw .exhausted)
  | rounds + 1, total, w, s => do
    let w ← makeRoom 1 w
    if w.fault.isSome then
      return (⟨total, w.fault⟩, w, s)
    let (g, w, s) ← draw w s
    let total := total + g.count
    if g.count = 0 || g.fault.isSome then
      let (receipt, w) ← concludeTransfer total g.fault w
      return (receipt, w, s)
    else drawRounds rounds total w s

def readFrom [BulkSink κ] (w : Writer κ) (s : σ) : Guarded (Receipt × Writer κ × σ) := do
  if w.fault.isSome then
    return (⟨0, w.fault⟩, w, s)
  if w.queued = [] then
    let (bulk, sink, s) ← of (BulkSink.readFrom w.sink s)
    let w := { w with sink }
    match bulk with
    | some receipt => return (receipt, w, s)
    | none => drawRounds (← of Act.patience) 0 w s
  else drawRounds (← of Act.patience) 0 w s

end Draw

/-! ## Operations -/

/-- Perform an operation, with every access checked. -/
def perform [ByteSource ν] [BulkSink κ] : Op ν → Stage κ → Guarded (Outcome ν × Stage κ)
  | _, .ended k => return (.nothing, .ended k)
  | .write b, .writing w => return (← write b w).map .receipt .writing
  | .writeText s, .writing w => return (← write (Bytes.ofText s) w).map .receipt .writing
  | .writeByte b, .writing w => return (← writeByte b w).map .byte .writing
  | .writeRune c, .writing w => return (← writeRune c w).map .rune .writing
  | .readFrom s, .writing w => do
    let (receipt, w, s) ← readFrom w (Traced.start s)
    return (.drew receipt s, .writing w)
  | .flush, .writing w => return (← flush w).map .flushed .writing
  | .plainWrite b, .writing w => return (← plainWrite b w).map .plain .writing
  | .plainFlush, .writing w => return (← plainFlush w).map .plainFlushed .writing
  | .adapt size pool, .writing w => return (.done, .writing (← adapt size pool w))
  | .intoSink, .writing w => do
    match (← intoSink w) with
    | .error (e, w) => return (.refused e, .writing w)
    | .ok k => return (.returned, .ended k)

end Checked

end BufferedStream.Writer
