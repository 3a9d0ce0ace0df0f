import BufferedStream.Duplex
import BufferedStream.Pool.Report
import BufferedStream.Reader.Delimited
import BufferedStream.Session.Step

/-!
# What a session does in each step

Every step takes what it works on out of its place, works on it, and puts what has become of it back.
While the reader and the writer are joined, steps on either go to the joined one.
-/

namespace BufferedStream

/-- What a session holds. -/
structure Session where
  reader : Option (Reader Endpoint.Source) := none
  writer : Option (Writer Endpoint.Sink) := none
  duplex : Option (Duplex Endpoint.Source Endpoint.Sink) := none
  source : Option Endpoint.Source := none
  sink : Option Endpoint.Sink := none
  /-- The named blocks, the latest first. -/
  blocks : List (String × Block) := []

namespace Session

/-! ## Places -/

/-- The reader, joined or not. -/
def reader? (s : Session) : Option (Reader Endpoint.Source) :=
  match s.duplex with
  | some d => some d.reader
  | none => s.reader

/-- The writer, joined or not. -/
def writer? (s : Session) : Option (Writer Endpoint.Sink) :=
  match s.duplex with
  | some d => some d.writer
  | none => s.writer

/-- Put the reader back where it was. -/
def putReader (r : Reader Endpoint.Source) (s : Session) : Session :=
  match s.duplex with
  | some d => { s with duplex := some (d.withReader r) }
  | none => { s with reader := some r }

/-- Put the writer back where it was. -/
def putWriter (w : Writer Endpoint.Sink) (s : Session) : Session :=
  match s.duplex with
  | some d => { s with duplex := some (d.withWriter w) }
  | none => { s with writer := some w }

/-- The block of a name. -/
def block? (s : Session) (slot : String) : Option Block := s.blocks.lookup slot

/-- Give a block a name. -/
def putBlock (slot : String) (b : Block) (s : Session) : Session :=
  { s with blocks := (slot, b) :: s.blocks.filter fun (name, _) => name ≠ slot }

/-- Take the block of a name away. -/
def dropBlock (slot : String) (s : Session) : Session :=
  { s with blocks := s.blocks.filter fun (name, _) => name ≠ slot }

/-- An answer with an unchanged session. -/
def answer (s : Session) (a : Answer) : Act (Answer × Session) := return (a, s)

/-! ## Making endpoints -/

/-- Make a source; the source that the session holds moves into it if it is asked for. -/
def makeSource (s : Session) : SourceSpec → Act (Option Endpoint.Source × Session)
  | .memory data => return (some (.ofBasic (.memory ⟨data⟩)), s)
  | .script script => return (some (.ofBasic (.script script)), s)
  | .plain script => return (some (.ofBasic (.plain ⟨script⟩)), s)
  | .reader capacity pool inner => do
    match (← s.makeSource inner) with
    | (some source, s) => return (some (← source.buffer capacity pool), s)
    | (none, s) => return (none, s)
  | .held => return (s.source, { s with source := none })

/-- Make a sink; the sink that the session holds moves into it if it is asked for. -/
def makeSink (s : Session) : SinkSpec → Act (Option Endpoint.Sink × Session)
  | .memory data => return (some (.ofBasic (.memory ⟨data⟩)), s)
  | .script script => return (some (.ofBasic (.script script)), s)
  | .plain script => return (some (.ofBasic (.plain ⟨script⟩)), s)
  | .writer capacity pool inner => do
    match (← s.makeSink inner) with
    | (some sink, s) => return (some (← sink.buffer capacity pool), s)
    | (none, s) => return (none, s)
  | .held => return (s.sink, { s with sink := none })

/-! ## Pools -/

/-- One step on a pool. -/
def poolStep (id : PoolId) (s : Session) : PoolStep → Act (Answer × Session)
  | .acquire slot capacity => do
    let b ← Act.acquire id capacity
    return (.block b, s.putBlock slot b)
  | .provide slot data => (s.putBlock slot (Block.ofBytes data)).answer .nothing
  | .fillWith slot x =>
    match s.block? slot with
    | some b => (s.putBlock slot (Block.filled b.length x)).answer .nothing
    | none => s.answer (.missing slot)
  | .release slot => do
    match s.block? slot with
    | some b =>
      match (← Act.release id b) with
      | none => return (.rejected none, s.dropBlock slot)
      | some b => return (.rejected (some b), s.putBlock slot b)
    | none => return (.missing slot, s)
  | .clear => do
    modify fun shared => { shared with pools := shared.pools.modify id Pool.clear }
    return (.nothing, s)
  | .info => do
    let p := (← get).pool id
    return (.info ⟨p.config, p.available, p.hitRate⟩, s)
  | .text => do
    let p := (← get).pool id
    return (.texts [p.text, p.statsText], s)

/-! ## Readers -/

/-- Empty a reader into the sink or the writer of the session. -/
def emptyReader (r : Reader Endpoint.Source) (target : Target) (s : Session) :
    Act (Answer × Session) := do
  match target, s.sink, s.writer with
  | .sink, some k, _ =>
    let (receipt, r, k) ← r.writeTo k
    return (.transfer receipt, { s with sink := some k }.putReader r)
  | .writer, _, some w =>
    let (receipt, r, w) ← r.writeTo w
    return (.transfer receipt, { s with writer := some w }.putReader r)
  | .sink, none, _ => s.answer (.missing "sink")
  | .writer, _, none => s.answer (.missing "writer")

/-- Continue with a reader and what an operation on it has answered. -/
def backReader {α : Type} (s : Session) (toAnswer : α → Answer)
    (act : Act (α × Reader Endpoint.Source)) : Act (Answer × Session) := do
  let (a, r) ← act
  return (toAnswer a, s.putReader r)

/-- One step on a reader. -/
def readerStep (r : Reader Endpoint.Source) (s : Session) : ReaderStep → Act (Answer × Session)
  | .peek n => s.backReader .passage (r.peek n)
  | .read n => s.backReader (.reading n) (ByteSource.read r { size := n })
  | .readByte => s.backReader .byte r.readByte
  | .unreadByte => s.backReader .unit r.unreadByte
  | .readRune => s.backReader .rune r.readRune
  | .unreadRune => s.backReader .unit (pure r.unreadRune)
  | .readSlice delim => s.backReader .passage (r.readSlice delim)
  | .readBytes delim => s.backReader .passage (r.readBytes delim)
  | .readString delim =>
    s.backReader (fun (text, fault) => .passage ⟨Bytes.ofText text, fault⟩) (r.readString delim)
  | .readLine => s.backReader .line r.readLine
  | .writeTo target => s.emptyReader r target
  | .capacity => s.answer (.number r.size)
  | .view => s.answer (.sourceView r.source.view)
  | .readSource n => do
    let (g, source) ← ByteSource.read r.source { size := n }
    return (.reading n g, s.putReader { r with source })
  | .text => s.answer (.text r.text)
  | .adapt size pool => do
    let r ← r.adapt size pool
    return (.number r.size, s.putReader r)
  | .intoSource => do
    let source ← r.intoSource
    return (.nothing, { s with source := some source, reader := none, duplex := none })
  | .plainRead n => s.backReader (fun g => .plainBytes (g.map Grant.bytes)) (r.plainRead { size := n })
  | .plainReadAll n => do
    let (b, failure, r) ← r.readAll n
    return (.plainAll b failure, s.putReader r)
  | .fillBuf => s.backReader .plainBytes r.fillBuf
  | .consume n => do return (.nothing, s.putReader (← r.consume n))
  | .readUntil delim => do
    let (result, b, r) ← r.readUntil delim
    return (.plainUntil result b, s.putReader r)

/-! ## Writers -/

/-- Draw the source or the reader of the session into a writer. -/
def fillWriter (w : Writer Endpoint.Sink) (origin : Origin) (s : Session) :
    Act (Answer × Session) := do
  match origin, s.source, s.reader with
  | .source, some source, _ =>
    let (receipt, w, source) ← w.readFrom source
    return (.transfer receipt, { s with source := some source }.putWriter w)
  | .reader, _, some r =>
    let (receipt, w, r) ← w.readFrom r
    return (.transfer receipt, { s with reader := some r }.putWriter w)
  | .source, none, _ => s.answer (.missing "source")
  | .reader, _, none => s.answer (.missing "reader")

/-- Continue with a writer and what an operation on it has answered. -/
def backWriter {α : Type} (s : Session) (toAnswer : α → Answer)
    (act : Act (α × Writer Endpoint.Sink)) : Act (Answer × Session) := do
  let (a, w) ← act
  return (toAnswer a, s.putWriter w)

/-- One step on a writer. -/
def writerStep (w : Writer Endpoint.Sink) (s : Session) : WriterStep → Act (Answer × Session)
  | .write data => s.backWriter .transfer (w.write data)
  | .writeByte b => s.backWriter .unit (w.writeByte b)
  | .writeRune c => s.backWriter .width (w.writeRune c)
  | .flush => s.backWriter .unit w.flush
  | .readFrom origin => s.fillWriter w origin
  | .capacity => s.answer (.number w.size)
  | .view => s.answer (.sinkView w.sink.view)
  | .adapt size pool => do
    let w ← w.adapt size pool
    return (.number w.size, s.putWriter w)
  | .writeSink data => do
    let (receipt, sink) ← ByteSink.write w.sink data
    return (.transfer receipt, s.putWriter { w with sink })
  | .text => s.answer (.text w.text)
  | .intoSink => do
    match (← w.intoSink) with
    | .ok sink =>
      return (.unit (.ok ()), { s with sink := some sink, writer := none, duplex := none })
    | .error (e, w) => return (.unit (.error e), s.putWriter w)
  | .plainWrite data => s.backWriter .plainCount (w.plainWrite data)
  | .plainFlush => s.backWriter .plainUnit w.plainFlush

/-! ## Pairs -/

/-- The pair with another reading half, and what an operation on that half has answered. -/
def backHalf {α : Type} (d : Duplex Endpoint.Source Endpoint.Sink) (s : Session)
    (toAnswer : α → Answer) (act : Act (α × Reader Endpoint.Source)) : Act (Answer × Session) := do
  let (a, r) ← act
  return (toAnswer a, { s with duplex := some (d.withReader r) })

/-- One step on a pair. -/
def duplexStep (d : Duplex Endpoint.Source Endpoint.Sink) (s : Session) :
    DuplexStep → Act (Answer × Session)
  | .read n => do
    let (g, d) ← ByteSource.read d { size := n }
    return (.reading n g, { s with duplex := some d })
  | .write data => do
    let (receipt, d) ← ByteSink.write d data
    return (.transfer receipt, { s with duplex := some d })
  | .writeTo => do
    match s.sink with
    | none => return (.missing "sink", s)
    | some k =>
      let (receipt, d, k) ← BulkSource.writeTo d k
      return ((receipt.map Answer.transfer).getD .nothing,
        { s with duplex := some d, sink := some k })
  | .readFrom => do
    match s.source with
    | none => return (.missing "source", s)
    | some source =>
      let (receipt, d, source) ← BulkSink.readFrom d source
      return ((receipt.map Answer.transfer).getD .nothing,
        { s with duplex := some d, source := some source })
  | .plainRead n => do
    let (g, d) ← PlainInput.read d { size := n }
    return (.plainBytes (g.map Grant.bytes), { s with duplex := some d })
  | .fillBuf => backHalf d s .plainBytes d.reader.fillBuf
  | .consume n => do
    let r ← d.reader.consume n
    return (.nothing, { s with duplex := some (d.withReader r) })
  | .plainWrite data => do
    let (result, d) ← PlainOutput.write d data
    return (.plainCount result, { s with duplex := some d })
  | .plainFlush => do
    let (result, w) ← d.writer.plainFlush
    return (.plainUnit result, { s with duplex := some (d.withWriter w) })
  | .text => s.answer (.text d.text)

/-! ## Sources and sinks -/

/-- One step on a source. -/
def sourceStep (source : Endpoint.Source) (s : Session) : SourceStep → Act (Answer × Session)
  | .read n => do
    let (g, source) ← ByteSource.read source { size := n }
    return (.reading n g, { s with source := some source })
  | .writeTo target => do
    match target, s.sink, s.writer with
    | .sink, some k, _ =>
      let (receipt, source, k) ← BulkSource.writeTo source k
      return ((receipt.map Answer.transfer).getD .nothing,
        { s with source := some source, sink := some k })
    | .writer, _, some w =>
      let (receipt, source, w) ← BulkSource.writeTo source w
      return ((receipt.map Answer.transfer).getD .nothing,
        { s with source := some source, writer := some w })
    | .sink, none, _ => s.answer (.missing "sink")
    | .writer, _, none => s.answer (.missing "writer")
  | .view => s.answer (.sourceView source.view)
  | .unwrap =>
    match source.unwrap? with
    | some n => { s with source := none }.answer (.number n)
    | none => s.answer (.missing "plain source")

/-- One step on a sink. -/
def sinkStep (k : Endpoint.Sink) (s : Session) : SinkStep → Act (Answer × Session)
  | .write data => do
    let (receipt, k) ← ByteSink.write k data
    return (.transfer receipt, { s with sink := some k })
  | .readFrom origin => do
    match origin, s.source, s.reader with
    | .source, some source, _ =>
      let (receipt, k, source) ← BulkSink.readFrom k source
      return ((receipt.map Answer.transfer).getD .nothing,
        { s with source := some source, sink := some k })
    | .reader, _, some r =>
      let (receipt, k, r) ← BulkSink.readFrom k r
      return ((receipt.map Answer.transfer).getD .nothing,
        { s with reader := some r, sink := some k })
    | .source, none, _ => s.answer (.missing "source")
    | .reader, _, none => s.answer (.missing "reader")
  | .view => s.answer (.sinkView k.view)
  | .unwrap =>
    match k.unwrap? with
    | some b => { s with sink := none }.answer (.bytes b)
    | none => s.answer (.missing "plain sink")

/-! ## All steps -/

/-- One step of a session. -/
def step (s : Session) : Step → Act (Answer × Session)
  | .makeSource spec => do
    match (← s.makeSource spec) with
    | (some source, s) => return (.nothing, { s with source := some source })
    | (none, s) => return (.missing "source", s)
  | .makeSink spec => do
    match (← s.makeSink spec) with
    | (some sink, s) => return (.nothing, { s with sink := some sink })
    | (none, s) => return (.missing "sink", s)
  | .makeReader spec capacity pool => do
    match (← s.makeSource spec) with
    | (some source, s) =>
      let r ← match capacity with
        | some size => pure (Reader.withCapacity source size pool)
        | none => Reader.ofSource source pool
      return (.nothing, { s with reader := some r })
    | (none, s) => return (.missing "source", s)
  | .makeWriter spec capacity pool => do
    match (← s.makeSink spec) with
    | (some sink, s) =>
      let w ← Writer.withCapacity sink (capacity.getD 0) pool
      return (.nothing, { s with writer := some w })
    | (none, s) => return (.missing "sink", s)
  | .join =>
    match s.reader, s.writer with
    | some r, some w =>
      { s with reader := none, writer := none, duplex := some ⟨r, w⟩ }.answer .nothing
    | _, _ => s.answer (.missing "reader and writer")
  | .split =>
    match s.duplex with
    | some d =>
      { s with reader := some d.reader, writer := some d.writer, duplex := none }.answer .nothing
    | none => s.answer (.missing "reader and writer")
  | .pool id p => s.poolStep id p
  | .reader p =>
    match s.reader? with
    | some r => s.readerStep r p
    | none => s.answer (.missing "reader")
  | .writer p =>
    match s.writer? with
    | some w => s.writerStep w p
    | none => s.answer (.missing "writer")
  | .duplex p =>
    match s.duplex with
    | some d => s.duplexStep d p
    | none => s.answer (.missing "reader and writer")
  | .source p =>
    match s.source with
    | some source => s.sourceStep source p
    | none => s.answer (.missing "source")
  | .sink p =>
    match s.sink with
    | some k => s.sinkStep k p
    | none => s.answer (.missing "sink")

end Session

end BufferedStream
