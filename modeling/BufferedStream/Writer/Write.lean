import BufferedStream.Stream.Plain
import BufferedStream.Writer.Basic

/-!
# Writing bytes, runes and texts

Bytes that fit are queued.  Bytes that do not fit top the buffer up, and it is passed on full; what is
then still longer than the buffer goes to the sink directly.
-/

namespace BufferedStream.Writer

variable {κ : Type}

/-- Queue as many bytes as fit. -/
def copyIn (b : Bytes) (w : Writer κ) : Act (Nat × Writer κ) := do
  if b = [] then
    return (0, w)
  let w ← w.acquire
  let taken := b.take w.available
  return (taken.length, w.enqueue taken)

variable [ByteSink κ]

/-- Pass on bytes that do not fit: with an empty buffer they go to the sink directly, otherwise they
top the buffer up.  The number of bytes taken is returned. -/
def writeRound (b : Bytes) (w : Writer κ) : Act (Nat × Writer κ) := do
  if w.queued = [] then
    w.pass b
  else
    let (n, w) ← w.copyIn b
    return (n, ← w.flushQueue)

/-- Pass bytes on until the rest fits into the buffer or the sink fails, at most a given number of
times. -/
def writeRounds :
    (rounds total : Nat) → Bytes → Writer κ → Act (Nat × Bytes × Writer κ)
  | 0, total, b, w => return (total, b, w)
  | rounds + 1, total, b, w => do
    if w.available < b.length && w.fault.isNone then
      let (n, w) ← w.writeRound b
      writeRounds rounds (total + n) (b.drop n) w
    else return (total, b, w)

/-- Write bytes and count those accepted.  Two rounds suffice: one passes the topped-up buffer on and
one the rest. -/
def write (b : Bytes) (w : Writer κ) : Act (Receipt × Writer κ) := do
  let (total, b, w) ← w.writeRounds 2 0 b
  match w.fault with
  | some e => return (⟨total, some e⟩, w)
  | none =>
    let (n, w) ← w.copyIn b
    return (⟨total + n, none⟩, w)

/-- Write one byte. -/
def writeByte (b : UInt8) (w : Writer κ) : Act (Except Error Unit × Writer κ) := do
  let w ← w.makeRoom 1
  match w.fault with
  | some e => return (.error e, w)
  | none => return (.ok (), (← w.acquire).enqueue [b])

/-- Write a text in UTF-8. -/
def writeText (s : String) (w : Writer κ) : Act (Receipt × Writer κ) := w.write (Bytes.ofText s)

/-- Write one character in UTF-8 and return its width.  A buffer too small for any character takes it
byte by byte. -/
def writeRune (c : Char) (w : Writer κ) : Act (Except Error Nat × Writer κ) := do
  if c.toNat < Rune.selfBound.toNat then
    let (result, w) ← w.writeByte c.toNat.toUInt8
    return (result.map fun () => 1, w)
  let w ← w.makeRoom Rune.maxWidth
  match w.fault with
  | some e => return (.error e, w)
  | none =>
    let encoded := Rune.encode c
    if w.available < Rune.maxWidth then
      let (receipt, w) ← w.write encoded
      match receipt.fault with
      | some e => return (.error e, w)
      | none => return (.ok receipt.count, w)
    else return (.ok encoded.length, (← w.acquire).enqueue encoded)

/-! ## A writer as a plain output -/

/-- Write bytes; an error is reported only if none was accepted.  The writer keeps its error, so the
failure reported is a shared one. -/
def plainWrite (b : Bytes) (w : Writer κ) : Act (Except IoError Nat × Writer κ) := do
  let (receipt, w) ← w.write b
  if 0 < receipt.count then
    return (.ok receipt.count, w)
  match receipt.fault with
  | none => return (.ok 0, w)
  | some e => return (.error (e.toIo true), w)

/-- Flush, as a plain output does. -/
def plainFlush (w : Writer κ) : Act (Except IoError Unit × Writer κ) := do
  let (result, w) ← w.flush
  return (intoIo true result, w)

instance : PlainOutput (Writer κ) where
  write w b := w.plainWrite b

end BufferedStream.Writer
