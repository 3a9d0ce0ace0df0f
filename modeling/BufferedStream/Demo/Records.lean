import BufferedStream.Demo.Basic
import BufferedStream.Reader.Delimited
import BufferedStream.Reader.Transfer
import BufferedStream.Stream.Memory
import BufferedStream.Stream.Plain
import BufferedStream.Writer.Transfer

/-!
# Demonstration: records and bulk copies

Lines longer than the buffer come in fragments, records are split at a delimiter, and a large copy runs
through a reader and a writer between plain endpoints.
-/

namespace BufferedStream.Demo

/-- A source that hands out a few bytes at a time. -/
structure Pipe where
  left : Bytes
  chunk : Nat

instance : ByteSource Pipe where
  read p room :=
    match p.left with
    | [] => return (.ofBytes [] (some .eof), p)
    | left =>
      let n := min room.size p.chunk
      return (.ofBytes (left.take n) none, { p with left := left.drop n })

/-- A plain input over a byte string. -/
structure ByteInput where
  left : Bytes

instance : PlainInput ByteInput where
  read i room :=
    let taken := i.left.take room.size
    return (.ok ⟨taken, taken.length⟩, ⟨i.left.drop room.size⟩)

/-- A plain output that keeps every byte. -/
structure ByteOutput where
  data : Bytes := []

instance : PlainOutput ByteOutput where
  write o b := return (.ok b.length, ⟨o.data ++ b⟩)

/-- Short lines, a long one, and a last one without an end. -/
def pipeText : Bytes :=
  (List.range 5).flatMap (fun i => Bytes.ofText ("event " ++ toString i ++ " ok\x0d\n"))
    ++ List.replicate 40 0x78 ++ Bytes.ofText "\nlast line without newline"

/-- Read lines until the stream ends and count the fragments; there are no more calls than bytes and
one. -/
def sayLines : (rounds fragments : Nat) → Reader Pipe → Demo Nat
  | 0, fragments, _ => return fragments
  | rounds + 1, fragments, r => do
    let (line, r) ← act r.readLine
    match line with
    | .ok (line, true) => do
      say ("  fragment: " ++ quoted line)
      sayLines rounds (fragments + 1) r
    | .ok (line, false) => do
      say ("line: " ++ quoted line)
      sayLines rounds fragments r
    | .error .eof => return fragments
    | .error e => throw e

/-- The fields of a record without its delimiter. -/
def fields (record : String) : List String :=
  (String.ofList (record.toList.reverse.dropWhile (· == ';')).reverse).splitOn ","

/-- Read records until one has no delimiter; there are no more of them than bytes and one. -/
def sayRecords : (rounds : Nat) → Reader MemorySource → Demo Unit
  | 0, _ => pure ()
  | rounds + 1, r => do
    let ((record, fault), r) ← act (r.readString 0x3b)
    say ("Record: [" ++ ", ".intercalate ((fields record).map Text.Quoted.quote) ++ "]")
    if fault.isNone then sayRecords rounds r

/-- Some records, the last one without its delimiter. -/
def recordText : Bytes := Bytes.ofText "id,name,score;1,ada,99;2,grace,97;3,linus,95"

/-- Every byte value in turn, a hundred thousand bytes. -/
def payload : Bytes := (List.range 100000).map fun i => UInt8.ofNat (i % 256)

/-- Copy the payload through a reader and a writer. -/
def sayCopy : Demo Unit := do
  part "Bulk Copy"
  let r ← act (Reader.ofSource (⟨⟨payload⟩⟩ : InputSource ByteInput) 0)
  let w ← act (Writer.withCapacity (⟨{}⟩ : OutputSink ByteOutput) 1024 0)
  let (receipt, _, w) ← act (r.writeTo w)
  if let some e := receipt.fault then
    throw e
  let (done, w) ← act w.flush
  expect done
  let sink ← expect ((← act w.intoSink).mapError Prod.fst)
  say ("Copied " ++ toString receipt.count ++ " bytes, identical: "
    ++ toString (sink.output.data == payload))

/-- The whole demonstration. -/
def records : Demo Unit := do
  title "Stream Processing"
  let lines := Reader.withCapacity (⟨pipeText, 7⟩ : Pipe) 16 0
  let fragments ← sayLines (pipeText.length + 1) 0 lines
  say ""
  say ("Long-line fragments: " ++ toString fragments)
  part "Record Splitting"
  let r ← act (Reader.ofSource (⟨recordText⟩ : MemorySource) 0)
  sayRecords (recordText.length + 1) r
  sayCopy

end BufferedStream.Demo
