import BufferedStream.Script.Sink
import BufferedStream.Stream.Memory
import BufferedStream.Writer.Transfer

/-!
# Sinks of any make

A sink is one of the basic ones or a writer over another sink, to any depth (`SinkStack`).  Calls on
it are noted when they return: every write to a basic sink that is not behind an adapter, which notes
its own, and every request to draw a source dry.
-/

namespace BufferedStream.Endpoint

/-- The basic sinks. -/
inductive BasicSink where
  | memory (m : MemorySink)
  | script (k : Script.Sink)
  | plain (k : OutputSink Script.Output)

namespace BasicSink

/-- Note a write. -/
def noteWrite {α : Type} (offered : Bytes) (receipt : Receipt) (a : α) : Act (Receipt × α) := do
  Act.note (.write offered receipt.count receipt.fault)
  return (receipt, a)

/-- Note a bulk intake. -/
def noteReadFrom {α : Type} (receipt : Option Receipt) (a : α) : Act (Option Receipt × α) := do
  Act.note (.readFrom receipt)
  return (receipt, a)

instance : BulkSink BasicSink where
  write
    | .memory m, b =>
      let (receipt, m) := m.write b
      noteWrite b receipt (.memory m)
    | .script k, b =>
      let (receipt, k) := k.write b
      noteWrite b receipt (.script k)
    | .plain k, b => do
      let (receipt, k) ← ByteSink.write k b
      return (receipt, .plain k)
  readFrom
    | .memory m, s => do
      let (receipt, m, s) ← m.readFrom s
      noteReadFrom receipt (.memory m, s)
    | .script k, s => do
      let (receipt, k, s) ← k.readFrom s
      noteReadFrom receipt (.script k, s)
    | .plain k, s => noteReadFrom none (.plain k, s)

end BasicSink

/-- A writer in the place of a sink. -/
structure StackedWriter (κ : Type) where
  writer : Writer κ

instance {κ : Type} [BulkSink κ] : BulkSink (StackedWriter κ) where
  write k b := do
    let (receipt, writer) ← k.writer.write b
    return (receipt, ⟨writer⟩)
  readFrom k s := do
    let (receipt, writer, s) ← k.writer.readFrom s
    BasicSink.noteReadFrom (some receipt) (⟨writer⟩, s)

/-- A basic sink under a number of writers. -/
def SinkStack : (depth : Nat) → Type
  | 0 => BasicSink
  | depth + 1 => StackedWriter (SinkStack depth)

namespace SinkStack

/-- How a stack of a given depth is written to. -/
@[reducible] def bulkSink : (depth : Nat) → BulkSink (SinkStack depth)
  | 0 => inferInstanceAs (BulkSink BasicSink)
  | depth + 1 =>
    have := bulkSink depth
    inferInstanceAs (BulkSink (StackedWriter (SinkStack depth)))

instance (depth : Nat) : BulkSink (SinkStack depth) := bulkSink depth

end SinkStack

/-- What can be seen of a sink from outside. -/
inductive SinkView where
  /-- The bytes taken. -/
  | data (b : Bytes)
  /-- The bytes taken and the number of script items left. -/
  | items (b : Bytes) (n : Nat)
  /-- The bytes a writer has queued, and the sink under it. -/
  | writer (buffered : Nat) (inner : SinkView)
  deriving Repr, Inhabited

/-- What can be seen of a basic sink. -/
def BasicSink.view : BasicSink → SinkView
  | .memory m => .data m.data
  | .script k => .items k.data k.items.length
  | .plain k => .items k.output.data k.output.items.length

/-- What can be seen of a stack. -/
def SinkStack.view : (depth : Nat) → SinkStack depth → SinkView
  | 0, k => BasicSink.view k
  | depth + 1, ⟨writer⟩ => .writer writer.buffered (view depth writer.sink)

/-- A sink of any make. -/
structure Sink where
  depth : Nat
  stack : SinkStack depth

namespace Sink

instance : BulkSink Sink where
  write k b := do
    let (receipt, stack) ← ByteSink.write k.stack b
    return (receipt, ⟨k.depth, stack⟩)
  readFrom k s := do
    let (receipt, stack, s) ← BulkSink.readFrom k.stack s
    return (receipt, ⟨k.depth, stack⟩, s)

/-- A basic sink. -/
def ofBasic (k : BasicSink) : Sink := ⟨0, k⟩

/-- A writer over a sink, itself taken as a sink. -/
def buffer (capacity : Option Nat) (pool : PoolId) (k : Sink) : Act Sink := do
  return ⟨k.depth + 1, ⟨← Writer.withCapacity k.stack (capacity.getD 0) pool⟩⟩

/-- What can be seen of a sink. -/
def view (k : Sink) : SinkView := k.stack.view

/-- The bytes a scripted plain output has taken. -/
def unwrap? : Sink → Option Bytes
  | ⟨0, .plain k⟩ => some k.output.data
  | _ => none

end Sink

end BufferedStream.Endpoint
