import BufferedStream.Error.Conversion
import BufferedStream.Error.Message
import BufferedStream.Reader.Window
import BufferedStream.Stream.Capability
import BufferedStream.Text.Rune

/-!
# Buffered readers

A reader puts a buffer in front of a source, so that bytes can be looked at before they are taken,
taken one by one, and pushed back.  Its block comes from a pool when it is first needed and returns
there once the stream has ended and every byte was handed out.

An error of the source is *latched*: it is reported once, by the first call that runs out of buffered
bytes, and then forgotten.
-/

namespace BufferedStream

/-- The least size of a reader's buffer. -/
def minReadBufferSize : Nat := 16

/-- The number of reads in a row that may come back with nothing before the reader gives up. -/
def maxEmptyReads : Nat := 100

/-- A buffered reader over a source. -/
structure Reader (σ : Type) where
  source : σ
  /-- The size of the buffer. -/
  size : Nat
  /-- The pool that blocks come from. -/
  pool : PoolId
  window : Window := {}
  /-- The length of the block held, if one is. -/
  held : Option Nat := none
  /-- The latched error. -/
  fault : Option Error := none
  /-- The byte that can be pushed back. -/
  lastByte : Option UInt8 := none
  /-- The width of the rune that can be pushed back. -/
  lastRune : Option Nat := none

namespace Reader

variable {σ : Type}

/-! ## Making a reader -/

/-- A reader whose buffer has at least the given size. -/
def withCapacity (source : σ) (size : Nat) (pool : PoolId) : Reader σ :=
  { source, size := max size minReadBufferSize, pool }

/-- A reader with a buffer of its pool's canonical size. -/
def ofSource (source : σ) (pool : PoolId) : Act (Reader σ) :=
  return withCapacity source (← Act.bufferSize pool) pool

/-- The number of bytes that can be had without a call on the source. -/
def buffered (r : Reader σ) : Nat := r.window.unread.length

/-- The reader without its latched error. -/
def cleared (r : Reader σ) : Reader σ := { r with fault := none }

/-! ## The block -/

/-- Take a block if none is held. -/
def acquire (r : Reader σ) : Act (Reader σ) :=
  match r.held with
  | some _ => pure r
  | none => do
    let b ← Act.acquire r.pool r.size
    return { r with held := some b.length, window := { r.window with spare := b.front } }

/-- The block held, with its contents. -/
def block? (r : Reader σ) : Option Block :=
  r.held.map fun length => Block.withFront length r.window.contents

/-- Hand the block back once the stream has ended and no byte is unread.  Only a block of the pool's
canonical length goes back, and it stays if the pool turns it away. -/
def settle (r : Reader σ) : Act (Reader σ) := do
  if r.window.unread = [] && (r.fault.any Error.isEof) then
    match r.block? with
    | none => return r
    | some b =>
      if b.length = (← Act.bufferSize r.pool) then
        match (← Act.release r.pool b) with
        | none => return { r with held := none, window := {} }
        | some _ => return r
      else return r
  else return r

/-- Give the block to the pool, whatever the state of the stream. -/
def surrender (r : Reader σ) : Act Unit := do
  if let some b := r.block? then
    let _ ← Act.release r.pool b

/-! ## Filling the buffer -/

section Fill

variable [ByteSource σ]

/-- Offer room to the source and take what it hands out. -/
def draw (room : Room) (r : Reader σ) : Act (Reading × Reader σ) := do
  let (g, source) ← ByteSource.read r.source room
  Act.require (g.count ≤ room.size) (.sourceOverrun g.count room.size)
  return (g, { r with source })

/-- Latch what a reading reports. -/
def latch (fault : Option Error) (r : Reader σ) : Reader σ :=
  match fault with
  | none => r
  | some e => { r with fault := some e }

/-- Read until something comes or an error is reported, at most a given number of times. -/
def fillRounds : (rounds : Nat) → Reader σ → Act (Reader σ)
  | 0, r => return r.latch (some .noProgress)
  | rounds + 1, r => do
    let offered := r.size - r.buffered
    let (g, r) ← r.draw ⟨offered, r.window.spare⟩
    let r := { r with window := r.window.receive g.toGrant }
    if g.fault.isSome || 0 < g.count || offered = 0 then return r.latch g.fault
    else fillRounds rounds r

/-- Read a new piece behind the unread bytes, which slide to the start of the block first. -/
def fill (r : Reader σ) : Act (Reader σ) := do
  let r ← r.acquire
  fillRounds maxEmptyReads { r with window := r.window.slide }

/-- Read once into the whole block, which holds nothing unread. -/
def readOnce (r : Reader σ) : Act (Reader σ) := do
  let r ← r.acquire
  let r := { r with window := r.window.reset }
  let (g, r) ← r.draw ⟨r.size, r.window.spare⟩
  return { r with window := r.window.receive g.toGrant }.latch g.fault

/-- Fill while the unread bytes leave something to be wanted and no error is latched, at most a given
number of times. -/
def fillWhile (wanting : Bytes → Bool) : (rounds : Nat) → Reader σ → Act (Reader σ)
  | 0, r => return r
  | rounds + 1, r =>
    if wanting r.window.unread && r.fault.isNone then do fillWhile wanting rounds (← r.fill)
    else return r

/-- Fill until `n` bytes are unread or an error is latched.  Every filling brings one or the other. -/
def ensure (n : Nat) (r : Reader σ) : Act (Reader σ) :=
  r.fillWhile (fun b => b.length < n) n

end Fill

/-! ## Bytes -/

section Bytes

variable [ByteSource σ]

/-- The next `n` bytes, which stay unread. -/
def peek (n : Nat) (r : Reader σ) : Act (Passage × Reader σ) := do
  let r := { r with lastRune := none }
  if r.size < n then
    return (⟨[], some .bufferFull⟩, r)
  let r ← r.ensure n
  let seen := r.window.unread.take n
  if seen.length < n then
    return (⟨seen, some (r.fault.getD .bufferFull)⟩, r.cleared)
  return (⟨seen, none⟩, r)

/-- Hand out up to `n` of the unread bytes. -/
def deliver (n : Nat) (r : Reader σ) : Act (Reading × Reader σ) := do
  let taken := r.window.unread.take n
  let r ← { r with
    window := r.window.advance n, lastByte := taken.getLast?, lastRune := none }.settle
  return (.ofBytes taken none, r)

/-- Hand out up to `n` of the unread bytes, or the latched error if there are none. -/
def deliverOrReport (n : Nat) (r : Reader σ) : Act (Reading × Reader σ) := do
  if r.window.unread ≠ [] then
    return ← r.deliver n
  let r ← r.settle
  return (.ofBytes [] r.fault, r.cleared)

/-- Read straight from the source, past the buffer. -/
def readThrough (room : Room) (r : Reader σ) : Act (Reading × Reader σ) := do
  let (g, r) ← r.draw room
  if g.count = 0 then return (g, r)
  let delivered := g.toGrant.bytesIn room.contents
  return (g, { r with lastByte := delivered.getLast?, lastRune := none })

/-- Read into the room offered, with at most one call on the source, which is made only if no byte is
unread.  Room as large as the buffer is offered to the source itself. -/
def read (room : Room) (r : Reader σ) : Act (Reading × Reader σ) := do
  let n := room.size
  if n = 0 then
    return (.ofBytes [] r.fault, r.cleared)
  if r.window.unread ≠ [] || r.fault.isSome then
    return ← r.deliverOrReport n
  if r.size ≤ n then
    return ← r.readThrough room
  (← r.readOnce).deliverOrReport n

/-- Hand out the next byte, or the latched error if no byte is unread. -/
def takeByte (r : Reader σ) : Act (Except Error UInt8 × Reader σ) :=
  match r.window.unread with
  | b :: _ => do
    let r ← { r with window := r.window.advance 1, lastByte := some b }.settle
    return (.ok b, r)
  | [] => do
    let r ← r.settle
    match r.fault with
    | some e => return (.error e, r.cleared)
    | none => throw .exhausted

/-- Read one byte.  One filling suffices: it brings a byte or an error. -/
def readByte (r : Reader σ) : Act (Except Error UInt8 × Reader σ) := do
  let r ← { r with lastRune := none }.ensure 1
  r.takeByte

/-- Push the byte read last back.  If nothing is unread the buffer starts over with that byte. -/
def unreadByte (r : Reader σ) : Act (Except Error Unit × Reader σ) := do
  let last := r.lastByte
  let r := { r with lastRune := none, lastByte := none }
  match last with
  | none => return (.error .invalidUnreadByte, r)
  | some b =>
    if r.window.unread = [] then
      let r ← r.acquire
      return (.ok (), { r with window := r.window.restart b })
    else if r.window.past = [] then return (.error .invalidUnreadByte, r)
    else return (.ok (), { r with window := r.window.retreat 1 })

end Bytes

/-! ## Runes -/

section Runes

/-- Fill until the first rune is settled or an error is latched. -/
def ensureRune [ByteSource σ] (r : Reader σ) : Act (Reader σ) :=
  r.fillWhile (fun b => b.length < Rune.maxWidth && !Rune.isSettled b) Rune.maxWidth

/-- Read one rune and its width; what is no text counts as one replaced byte. -/
def readRune [ByteSource σ] (r : Reader σ) : Act (Except Error (Char × Nat) × Reader σ) := do
  let r ← r.ensureRune
  let r := { r with lastRune := none }
  if r.window.unread = [] then
    let r ← r.settle
    return (.error (r.fault.getD .eof), r.cleared)
  let (c, width) := Rune.decode r.window.unread
  let window := r.window.advance width
  return (.ok (c, width),
    { r with window, lastByte := window.past.head?, lastRune := some width })

/-- Push the rune read last back, which only works right after it was read. -/
def unreadRune (r : Reader σ) : Except Error Unit × Reader σ :=
  match r.lastRune with
  | some width =>
    if width ≤ r.window.past.length then
      (.ok (),
        { r with window := r.window.retreat width, lastByte := none, lastRune := none })
    else (.error .invalidUnreadRune, r)
  | none => (.error .invalidUnreadRune, r)

end Runes

/-! ## Changing hands -/

/-- Move to a larger buffer.  Unread bytes, the latched error and the memory of what was read last
come along. -/
def regrow (size : Nat) (pool : PoolId) (r : Reader σ) : Act (Reader σ) := do
  let grown := withCapacity r.source size pool
  let grown := { grown with fault := r.fault, lastByte := r.lastByte, lastRune := r.lastRune }
  let grown ←
    if r.held.isSome && r.window.unread ≠ [] then do
      let grown ← grown.acquire
      pure { grown with
        window := { unread := r.window.unread,
                    spare := grown.window.contents.drop r.window.unread.length } }
    else pure grown
  r.surrender
  return grown

/-- A reader over the same stream with a buffer of at least the given size; a reader that has one
already is kept. -/
def adapt (size : Nat) (pool : PoolId) (r : Reader σ) : Act (Reader σ) :=
  if size ≤ r.size then pure r else r.regrow size pool

/-- Give up the reader for its source; bytes still unread are dropped. -/
def intoSource (r : Reader σ) : Act σ := do
  r.surrender
  return r.source

/-- The reader on one line. -/
def text (r : Reader σ) : String :=
  "Reader \x7b size: " ++ toString r.size ++ ", buffered: " ++ toString r.buffered ++ ", err: "
    ++ latchText r.fault ++ ", .. \x7d"

end Reader

end BufferedStream
