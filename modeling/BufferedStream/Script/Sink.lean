import BufferedStream.Script.Source

/-!
# Sinks that follow a script

A scripted sink serves its calls from a list of items, front first: it takes everything, or only so
many bytes, with or without an error, or claims more than it was offered.  It keeps what it takes.
-/

namespace BufferedStream.Script

/-- What a sink does next; `ε` is the type of its errors. -/
inductive SinkItem (ε : Type) where
  /-- Take everything, for a number of calls. -/
  | all (times : Nat)
  /-- Take at most `limit` bytes and report an error, if one is given. -/
  | take (limit : Nat) (fault : Option ε)
  /-- Claim everything and `excess` bytes more, and take nothing. -/
  | claim (excess : Nat)
  deriving Repr, Inhabited

/-- What a call with `b` does next: the bytes taken, the number claimed, the error, and the items
left. -/
def SinkItem.serve {ε : Type} (b : Bytes) :
    List (SinkItem ε) → Bytes × Nat × Option ε × List (SinkItem ε)
  | [] => (b, b.length, none, [])
  | .all times :: rest => (b, b.length, none, idleAgain .all times rest)
  | .take limit fault :: rest => (b.take limit, min limit b.length, fault, rest)
  | .claim excess :: rest => ([], b.length + excess, none, rest)

/-- A sink that follows a script; without an item it takes everything. -/
structure Sink where
  items : List (SinkItem Error)
  /-- What the sink does when asked to draw a source dry: the room it offers in one read, and the
  error it adds.  Without an item it cannot. -/
  bulk : List (Nat × Option Error) := []
  /-- The bytes taken so far. -/
  data : Bytes := []
  deriving Repr, Inhabited

namespace Sink

/-- One write. -/
def write (k : Sink) (b : Bytes) : Receipt × Sink :=
  let (taken, count, fault, items) := SinkItem.serve b k.items
  (⟨count, fault⟩, { k with items, data := k.data ++ taken })

/-- One bulk intake: a single read, whose error counts unless it is the end of the stream. -/
def readFrom {σ : Type} [ByteSource σ] (k : Sink) (s : σ) : Act (Option Receipt × Sink × σ) := do
  match k.bulk with
  | [] => return (none, k, s)
  | (size, fault) :: rest =>
    let (g, s) ← ByteSource.read s { size }
    let fault := match g.fault with
      | none | some .eof => fault
      | some e => some e
    return (some ⟨g.count, fault⟩, { k with bulk := rest, data := k.data ++ g.bytes.take size }, s)

instance : BulkSink Sink where
  write k b := return k.write b
  readFrom k s := k.readFrom s

end Sink

/-- A plain output that follows a script; without an item it takes everything. -/
structure Output where
  items : List (SinkItem IoError)
  /-- The bytes taken so far. -/
  data : Bytes := []
  deriving Repr, Inhabited

namespace Output

/-- One write. -/
def write (o : Output) (b : Bytes) : Except IoError Nat × Output :=
  let (taken, count, fault, items) := SinkItem.serve b o.items
  let result := match fault with
    | some cause => .error cause
    | none => .ok count
  (result, { items, data := o.data ++ taken })

instance : PlainOutput Output where
  write o b := do
    let (result, o) := o.write b
    Act.note (.output b (result.mapError IoError.kind))
    return (result, o)

end Output

end BufferedStream.Script
