import BufferedStream.Reader.Plain
import BufferedStream.Reader.Transfer
import BufferedStream.Writer.Transfer

/-!
# Both halves of one stream

A duplex pairs a reader with a writer.  The halves share nothing: reading goes to the reader and
writing to the writer.
-/

namespace BufferedStream

/-- A reader and a writer over the two halves of one stream. -/
structure Duplex (σ κ : Type) where
  reader : Reader σ
  writer : Writer κ

namespace Duplex

variable {σ κ : Type}

/-- Go on with another state of the reading half. -/
def withReader (d : Duplex σ κ) (reader : Reader σ) : Duplex σ κ := { d with reader }

/-- Go on with another state of the writing half. -/
def withWriter (d : Duplex σ κ) (writer : Writer κ) : Duplex σ κ := { d with writer }

/-- The two halves. -/
def halves (d : Duplex σ κ) : Reader σ × Writer κ := (d.reader, d.writer)

instance [ByteSource σ] : ByteSource (Duplex σ κ) where
  read d room := do
    let (g, reader) ← d.reader.read room
    return (g, d.withReader reader)

instance [BulkSource σ] : BulkSource (Duplex σ κ) where
  writeTo d k := do
    let (receipt, reader, k) ← d.reader.writeTo k
    return (some receipt, d.withReader reader, k)

instance [ByteSink κ] : ByteSink (Duplex σ κ) where
  write d b := do
    let (receipt, writer) ← d.writer.write b
    return (receipt, d.withWriter writer)

instance [BulkSink κ] : BulkSink (Duplex σ κ) where
  readFrom d s := do
    let (receipt, writer, s) ← d.writer.readFrom s
    return (some receipt, d.withWriter writer, s)

instance [ByteSource σ] : PlainInput (Duplex σ κ) where
  read d room := do
    let (result, reader) ← d.reader.plainRead room
    return (result, d.withReader reader)

instance [ByteSink κ] : PlainOutput (Duplex σ κ) where
  write d b := do
    let (result, writer) ← d.writer.plainWrite b
    return (result, d.withWriter writer)

/-- The duplex on one line. -/
def text (d : Duplex σ κ) : String :=
  "ReadWriter \x7b reader: " ++ d.reader.text ++ ", writer: "
    ++ d.writer.text ++ " \x7d"

end Duplex

end BufferedStream
