import BufferedStream.Reader.Basic

/-!
# Emptying a reader into a sink

The unread bytes go first.  Then a source that can move everything at once takes over; otherwise the
reader fills and drains its buffer until the stream ends.  The end of the stream is no fault here.
A reader is itself a source, so readers can be stacked.
-/

namespace BufferedStream.Reader

variable {σ κ : Type}

/-- Write the unread bytes to a sink. -/
def drain [ByteSink κ] (r : Reader σ) (k : κ) : Act (Receipt × Reader σ × κ) := do
  if r.window.unread = [] then
    return (⟨0, none⟩, r, k)
  let pending := r.buffered
  let (receipt, k) ← ByteSink.write k r.window.unread
  Act.require (receipt.count ≤ pending) (.sinkOverrun receipt.count pending)
  let fault :=
    if receipt.fault.isNone && receipt.count < pending then some .shortWrite else receipt.fault
  let r ← { r with window := r.window.advance receipt.count }.settle
  return (⟨receipt.count, fault⟩, r, k)

/-- Fill and drain by turns until nothing comes or the sink fails. -/
def drainRounds [ByteSource σ] [ByteSink κ] :
    (rounds total : Nat) → Reader σ → κ → Act (Receipt × Reader σ × κ)
  | 0, _, _, _ => throw .exhausted
  | rounds + 1, total, r, k => do
    let r ← r.fill
    if r.window.unread = [] then
      return (⟨total, none⟩, r, k)
    let (receipt, r, k) ← r.drain k
    let total := total + receipt.count
    if receipt.fault.isSome then return (⟨total, receipt.fault⟩, r, k)
    else drainRounds rounds total r k

/-- Report the latched error, the end of the stream excepted. -/
def concludeTransfer (r : Reader σ) : Act (Option Error × Reader σ) := do
  if r.fault.any Error.isEof then
    let r ← r.settle
    return (none, r.cleared)
  else return (r.fault, r.cleared)

/-- Move everything left in the stream into a sink. -/
def writeTo [BulkSource σ] [ByteSink κ] (r : Reader σ) (k : κ) :
    Act (Receipt × Reader σ × κ) := do
  let r := { r with lastByte := none, lastRune := none }
  let (first, r, k) ← r.drain k
  if first.fault.isSome then
    return (first, r, k)
  let (bulk, source, k) ← BulkSource.writeTo r.source k
  let r := { r with source }
  match bulk with
  | some receipt => return (⟨first.count + receipt.count, receipt.fault⟩, r, k)
  | none =>
    let (rest, r, k) ← drainRounds (← Act.patience) first.count r k
    if rest.fault.isSome then
      return (rest, r, k)
    let (fault, r) ← r.concludeTransfer
    return (⟨rest.count, fault⟩, r, k)

instance [ByteSource σ] : ByteSource (Reader σ) where
  read r room := r.read room

instance [BulkSource σ] : BulkSource (Reader σ) where
  writeTo r k := do
    let (receipt, r, k) ← r.writeTo k
    return (some receipt, r, k)

end BufferedStream.Reader
