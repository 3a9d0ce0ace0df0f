import BufferedStream.Reader.Basic
import BufferedStream.Stream.Plain

/-!
# A reader as a plain input

A plain input reports the end of the stream by handing out nothing, and an error only when nothing
was handed out.  `fillBuf` and `consume` give access to the buffer itself: the first shows what is
unread, the second counts it as read.
-/

namespace BufferedStream.Reader

variable {σ : Type} [ByteSource σ]

/-- The system failure that an error leaves the reader as.  The reader lets go of the error, so it is
shared only if someone outside holds it. -/
def failure (e : Error) : Act IoError := return e.toIo (← Act.isKept e)

/-- Read into the room offered; an error that came with bytes is latched again for the next call. -/
def plainRead (room : Room) (r : Reader σ) : Act (Except IoError Grant × Reader σ) := do
  let (g, r) ← r.read room
  if 0 < g.count then
    return (.ok g.toGrant, r.latch g.fault)
  match g.fault with
  | none | some .eof => return (.ok ⟨[], 0⟩, r)
  | some e => return (.error (← failure e), r)

instance : PlainInput (Reader σ) where
  read r room := r.plainRead room

/-- The unread bytes, or else the latched error; no bytes at the end of the stream. -/
def showBuffer (r : Reader σ) : Act (Except IoError Bytes × Reader σ) := do
  if r.window.unread ≠ [] then
    return (.ok r.window.unread, r)
  let r ← r.settle
  match r.fault with
  | none | some .eof => return (.ok [], r.cleared)
  | some e => return (.error (← failure e), r.cleared)

/-- The unread bytes, after filling if there were none. -/
def fillBuf (r : Reader σ) : Act (Except IoError Bytes × Reader σ) := do
  if r.window.unread = [] && r.fault.isNone then (← r.fill).showBuffer else r.showBuffer

/-- Count up to `n` unread bytes as read. -/
def consume (n : Nat) (r : Reader σ) : Act (Reader σ) := do
  let taken := r.window.unread.take n
  if taken = [] then
    return r
  { r with window := r.window.advance n, lastByte := taken.getLast?, lastRune := none }.settle

/-- Fill and consume until a delimiter has been appended or the stream has ended. -/
def readUntilRounds (delim : UInt8) :
    (rounds : Nat) → (collected : Bytes) → Reader σ → Act (Except IoError Nat × Bytes × Reader σ)
  | 0, _, _ => throw .exhausted
  | rounds + 1, collected, r => do
    let (shown, r) ← r.fillBuf
    match shown with
    | .error cause =>
      if cause.kind = .interrupted then readUntilRounds delim rounds collected r
      else return (.error cause, collected, r)
    | .ok b =>
      match b.idxOf? delim with
      | some i =>
        let collected := collected ++ b.take (i + 1)
        return (.ok collected.length, collected, ← r.consume (i + 1))
      | none =>
        let collected := collected ++ b
        let r ← r.consume b.length
        if b = [] then return (.ok collected.length, collected, r)
        else readUntilRounds delim rounds collected r

/-- Append everything up to and including the first delimiter.  The bytes appended before a failure
are returned with it. -/
def readUntil (delim : UInt8) (r : Reader σ) : Act (Except IoError Nat × Bytes × Reader σ) := do
  readUntilRounds delim (← Act.patience) [] r

/-- Read into the same room again and again until nothing comes. -/
def readAllRounds :
    (rounds : Nat) → Room → (collected : Bytes) → Reader σ →
      Act (Bytes × Option IoError × Reader σ)
  | 0, _, _, _ => throw .exhausted
  | rounds + 1, room, collected, r => do
    let (result, r) ← r.plainRead room
    match result with
    | .error cause => return (collected, some cause, r)
    | .ok g =>
      if g.count = 0 then return (collected, none, r)
      readAllRounds rounds { room with contents := g.fillIn room.contents }
        (collected ++ g.bytesIn room.contents) r

/-- Read with room for `n` bytes, the same room every time, until nothing comes or a failure is
reported. -/
def readAll (n : Nat) (r : Reader σ) : Act (Bytes × Option IoError × Reader σ) := do
  readAllRounds (← Act.patience) { size := n } [] r

end BufferedStream.Reader
