import BufferedStream.Demo.Basic
import BufferedStream.Pool.Report
import BufferedStream.Reader.Delimited
import BufferedStream.Stream.Memory
import BufferedStream.Text.Fixed
import BufferedStream.Writer.Transfer

/-!
# Demonstration: the basics

Writing into a memory sink, looking ahead and pushing back, reading lines and runes, and what the pool
has done in the meantime.
-/

namespace BufferedStream.Demo

/-- Write two lines and a rune, and return what the sink then holds. -/
def writeGreeting : Demo Bytes := do
  title "Writing"
  let w ← act (Writer.ofSink ({} : MemorySink) 0)
  let (_, w) ← act (w.writeText "name=ferris\n")
  let (_, w) ← act (w.write (Bytes.ofText "lang=rust\n"))
  let (width, w) ← act (w.writeRune '🦀')
  let _ ← expect width
  let (done, w) ← act (w.writeByte 0x0a)
  expect done
  say ("Queued bytes: " ++ toString w.buffered)
  say ("Room left: " ++ toString w.available)
  let (done, w) ← act w.flush
  expect done
  let sink ← expect ((← act w.intoSink).mapError Prod.fst)
  say ("Sink now holds " ++ toString sink.data.length ++ " bytes")
  return sink.data

/-- Look at the first bytes, read one and push it back. -/
def lookAhead (r : Reader MemorySource) : Demo (Reader MemorySource) := do
  part "Peeking and Unreading"
  let (head, r) ← act (r.peek 4)
  say ("Peeked: " ++ quoted head.bytes)
  let (first, r) ← act r.readByte
  let first ← expect first
  let (done, r) ← act r.unreadByte
  expect done
  say ("Read then pushed back: '" ++ String.singleton (Char.ofNat first.toNat) ++ "'")
  return r

/-- Read one line and say it. -/
def sayLine (r : Reader MemorySource) : Demo (Reader MemorySource) := do
  let (line, r) ← act r.readLine
  let (line, isPart) ← expect line
  say ("Line: " ++ quoted line ++ " (prefix: " ++ toString isPart ++ ")")
  return r

/-- Read two lines, a rune, the rest, and the end. -/
def readRecords (r : Reader MemorySource) : Demo Unit := do
  part "Reading Records"
  let r ← sayLine r
  let r ← sayLine r
  let (rune, r) ← act r.readRune
  let (c, width) ← expect rune
  say ("Rune: " ++ String.singleton c ++ " (" ++ toString width ++ " bytes)")
  let (done, r) := r.unreadRune
  expect done
  let ((rest, fault), r) ← act (r.readString Reader.newline)
  say ("Rest: " ++ Text.Quoted.quote rest ++ ", error: " ++ latchText fault)
  let (next, _) ← act r.readByte
  match next with
  | .error .eof => say "Reached end of stream"
  | .error e => say ("Unexpected: Err(" ++ e.structureText ++ ")")
  | .ok b => say ("Unexpected: Ok(" ++ toString b.toNat ++ ")")

/-- The whole demonstration. -/
def basics : Demo Unit := do
  let data ← writeGreeting
  let r ← act (Reader.ofSource (⟨data⟩ : MemorySource) 0)
  readRecords (← lookAhead r)
  part "Pool Statistics"
  let pool := (← act get).pool 0
  say ("Acquired: " ++ toString pool.counters.acquired)
  say ("Reused: " ++ toString pool.counters.reused)
  say ("Idle now: " ++ toString pool.available)
  say ("Hit rate: " ++ Text.Fixed.format 1 pool.hitRate ++ "%")

end BufferedStream.Demo
