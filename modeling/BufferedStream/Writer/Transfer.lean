import BufferedStream.Writer.Write

/-!
# Drawing a source into a writer

With nothing queued a sink that can draw the source dry takes over.  Otherwise bytes are read straight
into the room of the buffer, which is passed on whenever it is full.  The end of the stream is no
fault, and a read that hands out nothing ends the transfer.  A writer is itself a sink, so writers can
be stacked.
-/

namespace BufferedStream.Writer

variable {σ κ : Type} [ByteSource σ]

/-- Offer the room left to a source and queue what it hands out. -/
def draw (w : Writer κ) (s : σ) : Act (Reading × Writer κ × σ) := do
  let w ← w.acquire
  let offered := w.available
  let (g, s) ← ByteSource.read s ⟨offered, w.spare⟩
  Act.require (g.count ≤ offered) (.sourceOverrun g.count offered)
  return (g, { w with
    queued := w.queued ++ g.bytesIn w.spare
    spare := (g.fillIn w.spare).drop g.count }, s)

section Rounds

variable [ByteSink κ]

/-- End a transfer with what the source reported last; a buffer that is full just as the stream ends
is passed on. -/
def concludeTransfer (total : Nat) (fault : Option Error) (w : Writer κ) :
    Act (Receipt × Writer κ) := do
  match fault with
  | some .eof =>
    let w ← w.makeRoom 1
    return (⟨total, w.fault⟩, w)
  | fault => return (⟨total, fault⟩, w)

/-- Draw and pass on by turns. -/
def drawRounds :
    (rounds total : Nat) → Writer κ → σ → Act (Receipt × Writer κ × σ)
  | 0, _, _, _ => throw .exhausted
  | rounds + 1, total, w, s => do
    let w ← w.makeRoom 1
    if w.fault.isSome then
      return (⟨total, w.fault⟩, w, s)
    let (g, w, s) ← w.draw s
    let total := total + g.count
    if g.count = 0 || g.fault.isSome then
      let (receipt, w) ← w.concludeTransfer total g.fault
      return (receipt, w, s)
    else drawRounds rounds total w s

end Rounds

/-- Move everything a source has left into the writer. -/
def readFrom [BulkSink κ] (w : Writer κ) (s : σ) : Act (Receipt × Writer κ × σ) := do
  if w.fault.isSome then
    return (⟨0, w.fault⟩, w, s)
  if w.queued = [] then
    let (bulk, sink, s) ← BulkSink.readFrom w.sink s
    let w := { w with sink }
    match bulk with
    | some receipt => return (receipt, w, s)
    | none => drawRounds (← Act.patience) 0 w s
  else drawRounds (← Act.patience) 0 w s

instance [ByteSink κ] : ByteSink (Writer κ) where
  write w b := w.write b

instance [BulkSink κ] : BulkSink (Writer κ) where
  readFrom w s := do
    let (receipt, w, s) ← w.readFrom s
    return (some receipt, w, s)

end BufferedStream.Writer
