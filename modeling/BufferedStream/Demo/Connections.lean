import BufferedStream.Demo.Basic
import BufferedStream.Duplex
import BufferedStream.Reader.Delimited
import BufferedStream.Stream.Memory

/-!
# Demonstration: many short connections

Many short-lived connections share one pool: each reads a request and writes a response.  At the end a
connection breaks, and its writer keeps reporting why.
-/

namespace BufferedStream.Demo

/-- A connection that breaks after taking `budget` bytes. -/
structure FlakyLink where
  sent : Bytes := []
  budget : Nat

instance : ByteSink FlakyLink where
  write k b := do
    let n := min b.length k.budget
    let k : FlakyLink := { sent := k.sent ++ b.take n, budget := k.budget - n }
    if n < b.length then
      return (⟨n, some ((IoError.bare .connectionReset).enter (← Act.freshId))⟩, k)
    else return (⟨n, none⟩, k)

/-- Read header lines up to the empty one. -/
def skipHeaders : (rounds : Nat) → Reader MemorySource → Demo (Reader MemorySource)
  | 0, r => return r
  | rounds + 1, r => do
    let (header, r) ← act r.readLine
    let (header, _) ← expect header
    if header = [] then return r else skipHeaders rounds r

/-- The second word of a request line, or the root. -/
def requestedPath (line : Bytes) : String :=
  (((Rune.lossy line).splitOn " ").filter (· ≠ "")).getD 1 "/"

/-- Serve one request and return the response. -/
def handleRequest (request : Bytes) : Demo Bytes := do
  let reader ← act (Reader.ofSource (⟨request⟩ : MemorySource) 0)
  let writer ← act (Writer.ofSink ({} : MemorySink) 0)
  let conn : Duplex MemorySource MemorySink := ⟨reader, writer⟩
  let (line, reader) ← act conn.reader.readLine
  let (line, _) ← expect line
  let path := requestedPath line
  let reader ← skipHeaders (request.length + 1) reader
  let body := "you asked for " ++ path ++ "\n"
  let (_, writer) ← act (conn.writer.writeText "HTTP/1.0 200 OK\x0d\n")
  let (_, writer) ← act (writer.writeText
    ("Content-Length: " ++ toString body.utf8ByteSize ++ "\x0d\n\x0d\n"))
  let (_, writer) ← act (writer.writeText body)
  let (done, writer) ← act writer.flush
  expect done
  let (_, writer) := ((conn.withReader reader).withWriter writer).halves
  let sink ← expect ((← act writer.intoSink).mapError Prod.fst)
  return sink.data

/-- The request of one client for one item. -/
def request (client item : Nat) : Bytes :=
  Bytes.ofText ("GET /item/" ++ toString client ++ "/" ++ toString item
    ++ " HTTP/1.0\x0d\nHost: example\x0d\n\x0d\n")

/-- The number of clients. -/
def clients : Nat := 4

/-- The number of requests that each client makes. -/
def perClient : Nat := 2500

/-- Serve all requests and return the bytes of all responses. -/
def serveAll : Demo Nat :=
  (List.range clients).foldlM (fun total client =>
    (List.range perClient).foldlM (fun total item => do
      return total + (← handleRequest (request client item)).length) total) 0

/-- Write to a connection that breaks. -/
def sayBroken : Demo Unit := do
  part "Broken Connection"
  let w ← act (Writer.withCapacity ({ budget := 10 } : FlakyLink) 8 0)
  let (accepted, w) ← act (w.write (Bytes.ofText "0123456789abcdefghij"))
  say ("Accepted " ++ toString accepted.count ++ " bytes, error: " ++ latchText accepted.fault)
  let (later, w) ← act (w.write (Bytes.ofText "more"))
  say ("Later write: (" ++ toString later.count ++ ", " ++ latchText later.fault ++ ")")
  let (flushed, w) ← act w.flush
  match flushed with
  | .ok () => say "Flush: Ok(())"
  | .error e => say ("Flush: Err(" ++ e.structureText ++ ")")
  say ("Delivered: " ++ quoted w.sink.sent)

/-- The pool that the connections share. -/
def connectionPool : PoolConfig := { bufferSize := 4096, maxIdle := 16, minIdle := 4 }

/-- The whole demonstration. -/
def connections : Demo Unit := do
  title "Connection Simulation"
  let total ← serveAll
  say ("Handled " ++ toString (clients * perClient) ++ " requests")
  say ("Response bytes: " ++ toString total)
  say ""
  say "Pool statistics:"
  say ("  Acquired: " ++ toString ((← act get).pool 0).counters.acquired)
  sayBroken

end BufferedStream.Demo
