import BufferedStream.Stream.Act

/-!
# Sources and sinks

A source hands out bytes and a sink takes them.  Either may also move everything at once: a bulk
source empties itself into a sink, a bulk sink draws a source dry.  A bulk call that answers `none`
says that the endpoint cannot do it.  Emptying a source uses its sink only to write, and drawing a
source dry uses it only to read.
-/

namespace BufferedStream

/-- Something that hands out bytes into the room it is offered. -/
class ByteSource (σ : Type) where
  read : σ → Room → Act (Reading × σ)

/-- Something that takes bytes. -/
class ByteSink (κ : Type) where
  write : κ → Bytes → Act (Receipt × κ)

/-- A source that may move all it has into a sink; the end of the stream is no fault then. -/
class BulkSource (σ : Type) extends ByteSource σ where
  writeTo : {κ : Type} → [ByteSink κ] → σ → κ → Act (Option Receipt × σ × κ)

/-- A sink that may draw all a source has; the end of the stream is no fault then. -/
class BulkSink (κ : Type) extends ByteSink κ where
  readFrom : {σ : Type} → [ByteSource σ] → κ → σ → Act (Option Receipt × κ × σ)

end BufferedStream
