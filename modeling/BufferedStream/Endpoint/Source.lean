import BufferedStream.Reader.Transfer
import BufferedStream.Script.Source
import BufferedStream.Stream.Memory

/-!
# Sources of any make

A source is one of the basic ones or a reader over another source, to any depth (`SourceStack`).
Calls on it are noted when they return: every read of a basic source that is not behind an adapter,
which notes its own, and every request to move everything at once.
-/

namespace BufferedStream.Endpoint

/-- The basic sources. -/
inductive BasicSource where
  | memory (m : MemorySource)
  | script (s : Script.Source)
  | plain (s : InputSource Script.Input)

namespace BasicSource

/-- Note a read. -/
def noteRead {α : Type} (offered : Nat) (g : Reading) (a : α) : Act (Reading × α) := do
  Act.note (.read offered g.count g.fault)
  return (g, a)

/-- Note a bulk transfer. -/
def noteWriteTo {α : Type} (receipt : Option Receipt) (a : α) : Act (Option Receipt × α) := do
  Act.note (.writeTo receipt)
  return (receipt, a)

instance : BulkSource BasicSource where
  read
    | .memory m, room =>
      let (g, m) := m.read room.size
      noteRead room.size g (.memory m)
    | .script s, room =>
      let (g, s) := s.read room.size
      noteRead room.size g (.script s)
    | .plain s, room => do
      let (g, s) ← ByteSource.read s room
      return (g, .plain s)
  writeTo
    | .memory m, k => do
      let (receipt, m, k) ← m.writeTo k
      noteWriteTo receipt (.memory m, k)
    | .script s, k => do
      let (receipt, s, k) ← s.writeTo k
      noteWriteTo receipt (.script s, k)
    | .plain s, k => noteWriteTo none (.plain s, k)

end BasicSource

/-- A reader in the place of a source. -/
structure StackedReader (σ : Type) where
  reader : Reader σ

instance {σ : Type} [BulkSource σ] : BulkSource (StackedReader σ) where
  read s room := do
    let (g, reader) ← s.reader.read room
    return (g, ⟨reader⟩)
  writeTo s k := do
    let (receipt, reader, k) ← s.reader.writeTo k
    BasicSource.noteWriteTo (some receipt) (⟨reader⟩, k)

/-- A basic source under a number of readers. -/
def SourceStack : (depth : Nat) → Type
  | 0 => BasicSource
  | depth + 1 => StackedReader (SourceStack depth)

namespace SourceStack

/-- How a stack of a given depth is read. -/
@[reducible] def bulkSource : (depth : Nat) → BulkSource (SourceStack depth)
  | 0 => inferInstanceAs (BulkSource BasicSource)
  | depth + 1 =>
    have := bulkSource depth
    inferInstanceAs (BulkSource (StackedReader (SourceStack depth)))

instance (depth : Nat) : BulkSource (SourceStack depth) := bulkSource depth

end SourceStack

/-- What can be seen of a source from outside. -/
inductive SourceView where
  /-- The bytes still to be handed out. -/
  | left (b : Bytes)
  /-- The number of script items left. -/
  | items (n : Nat)
  /-- The bytes a reader holds unread, and the source under it. -/
  | reader (buffered : Nat) (inner : SourceView)
  deriving Repr, Inhabited

/-- What can be seen of a basic source. -/
def BasicSource.view : BasicSource → SourceView
  | .memory m => .left m.left
  | .script s => .items s.items.length
  | .plain s => .items s.input.items.length

/-- What can be seen of a stack. -/
def SourceStack.view : (depth : Nat) → SourceStack depth → SourceView
  | 0, s => BasicSource.view s
  | depth + 1, ⟨reader⟩ => .reader reader.buffered (view depth reader.source)

/-- A source of any make. -/
structure Source where
  depth : Nat
  stack : SourceStack depth

namespace Source

instance : BulkSource Source where
  read s room := do
    let (g, stack) ← ByteSource.read s.stack room
    return (g, ⟨s.depth, stack⟩)
  writeTo s k := do
    let (receipt, stack, k) ← BulkSource.writeTo s.stack k
    return (receipt, ⟨s.depth, stack⟩, k)

/-- A basic source. -/
def ofBasic (s : BasicSource) : Source := ⟨0, s⟩

/-- A reader over a source, itself taken as a source. -/
def buffer (capacity : Option Nat) (pool : PoolId) (s : Source) : Act Source := do
  let size ← match capacity with
    | some size => pure size
    | none => Act.bufferSize pool
  return ⟨s.depth + 1, ⟨Reader.withCapacity s.stack size pool⟩⟩

/-- What can be seen of a source. -/
def view (s : Source) : SourceView := s.stack.view

/-- The number of items left of a scripted plain input. -/
def unwrap? : Source → Option Nat
  | ⟨0, .plain s⟩ => some s.input.items.length
  | _ => none

end Source

end BufferedStream.Endpoint
