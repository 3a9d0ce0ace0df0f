import BufferedStream.Stream.Capability

/-!
# Memory endpoints

A memory source hands out a byte string, a memory sink collects one.  Both move everything at once:
the source in a single write, the sink in reads of a fixed size.
-/

namespace BufferedStream

/-- A source over a byte string: the bytes still to be handed out. -/
structure MemorySource where
  left : Bytes
  deriving DecidableEq, Repr, Inhabited

/-- A sink that keeps every byte. -/
structure MemorySink where
  data : Bytes := []
  deriving DecidableEq, Repr, Inhabited

namespace MemorySource

/-- Hand out as many bytes as there is room for; an exhausted source reports the end of the stream
to whoever offers room. -/
def read (m : MemorySource) (offered : Nat) : Reading × MemorySource :=
  match m.left with
  | [] => (.ofBytes [] (if offered = 0 then none else some .eof), m)
  | left => (.ofBytes (left.take offered) none, ⟨left.drop offered⟩)

/-- Offer all remaining bytes to the sink in one write. -/
def writeTo {κ : Type} [ByteSink κ] (m : MemorySource) (k : κ) :
    Act (Option Receipt × MemorySource × κ) := do
  if m.left = [] then
    return (some ⟨0, none⟩, m, k)
  let (receipt, k) ← ByteSink.write k m.left
  let offered := m.left.length
  Act.require (receipt.count ≤ offered) .bulkSinkOverrun
  let fault :=
    if receipt.count < offered && receipt.fault.isNone then some .shortWrite else receipt.fault
  return (some ⟨receipt.count, fault⟩, ⟨m.left.drop receipt.count⟩, k)

instance : BulkSource MemorySource where
  read m room := return m.read room.size
  writeTo m k := m.writeTo k

end MemorySource

namespace MemorySink

/-- The room offered to a source in one read of a bulk intake. -/
def chunk : Nat := 512

/-- Keep all bytes. -/
def write (m : MemorySink) (b : Bytes) : Receipt × MemorySink :=
  (⟨b.length, none⟩, ⟨m.data ++ b⟩)

/-- Read chunk after chunk until the source reports a fault or hands out nothing. -/
def readRounds {σ : Type} [ByteSource σ] :
    Nat → (total : Nat) → MemorySink → σ → Act (Option Receipt × MemorySink × σ)
  | 0, _, _, _ => throw .exhausted
  | rounds + 1, total, m, s => do
    let (g, s) ← ByteSource.read s { size := chunk }
    Act.require (g.count ≤ chunk) .bulkSourceOverrun
    let m : MemorySink := ⟨m.data ++ g.bytes⟩
    let total := total + g.count
    match g.fault with
    | some .eof => return (some ⟨total, none⟩, m, s)
    | some e => return (some ⟨total, some e⟩, m, s)
    | none => if g.count = 0 then return (some ⟨total, none⟩, m, s) else readRounds rounds total m s

/-- Draw a source dry. -/
def readFrom {σ : Type} [ByteSource σ] (m : MemorySink) (s : σ) :
    Act (Option Receipt × MemorySink × σ) := do
  readRounds (← Act.patience) 0 m s

instance : BulkSink MemorySink where
  write m b := return m.write b
  readFrom m s := m.readFrom s

end MemorySink

end BufferedStream
