import BufferedStream.Error.Conversion
import BufferedStream.Stream.Capability

/-!
# Plain inputs and outputs

The system's own endpoints report either progress or a failure, never both.  A plain input that
hands out nothing into a room that is not empty has ended; a plain output may take part of what it is
offered.  The adapters turn them into a source and a sink.  An interrupted call counts as never made.
-/

namespace BufferedStream

/-- An endpoint of the system that hands out bytes. -/
class PlainInput (ι : Type) where
  read : ι → Room → Act (Except IoError Grant × ι)

/-- An endpoint of the system that takes bytes, perhaps only some of those offered. -/
class PlainOutput (ω : Type) where
  write : ω → Bytes → Act (Except IoError Nat × ω)

/-- A plain input as a source. -/
structure InputSource (ι : Type) where
  input : ι

/-- A plain output as a sink. -/
structure OutputSink (ω : Type) where
  output : ω

namespace InputSource

variable {ι : Type} [PlainInput ι]

/-- Read once, again after every interruption. -/
def readRounds : Nat → ι → Room → Act (Reading × InputSource ι)
  | 0, _, _ => throw .exhausted
  | rounds + 1, i, room => do
    let (result, i) ← PlainInput.read i room
    match result with
    | .ok g =>
      if g.count = 0 && 0 < room.size then return (.ofBytes [] (some .eof), ⟨i⟩)
      else return ({ g with fault := none }, ⟨i⟩)
    | .error cause =>
      if cause.kind = .interrupted then readRounds rounds i room
      else return (.ofBytes [] (some (cause.enter (← Act.freshId))), ⟨i⟩)

instance : BulkSource (InputSource ι) where
  read s room := do readRounds (← Act.patience) s.input room
  writeTo s k := return (none, s, k)

end InputSource

namespace OutputSink

variable {ω : Type} [PlainOutput ω]

/-- Write until nothing is left; a write that takes nothing is a failure. -/
def writeRounds : Nat → (written : Nat) → ω → Bytes → Act (Receipt × OutputSink ω)
  | _, written, o, [] => return (⟨written, none⟩, ⟨o⟩)
  | 0, _, _, _ => throw .exhausted
  | rounds + 1, written, o, b => do
    let (result, o) ← PlainOutput.write o b
    match result with
    | .ok 0 =>
      return (⟨written, some ((IoError.bare .writeZero).enter (← Act.freshId))⟩, ⟨o⟩)
    | .ok n => writeRounds rounds (written + n) o (b.drop n)
    | .error cause =>
      if cause.kind = .interrupted then writeRounds rounds written o b
      else return (⟨written, some (cause.enter (← Act.freshId))⟩, ⟨o⟩)

instance : BulkSink (OutputSink ω) where
  write k b := do writeRounds (← Act.patience) 0 k.output b
  readFrom k s := return (none, k, s)

end OutputSink

end BufferedStream
