import BufferedStream.Proofs.Reader.Operation
import BufferedStream.Proofs.Safety.Guard

/-!
# A reader that checks what it touches

In its block a reader touches slices and single bytes at indices that it keeps
count of: the unread bytes lie from `lo` to `hi`, and the buffer ends at `size`,
perhaps before the block does.  Here every operation is written down once more,
with a check wherever a slice is taken (`slice`), a byte looked at (`byteAt`), the
cursor moved (`forward`, `back`) or room outside the block used.  What else happens
is left to the operation itself.

* `Reader.Checked.perform`, `Reader.Checked.execute` — the checked operations and tasks.
-/

namespace BufferedStream.Reader

open Guarded (of check)

variable {σ κ : Type}

/-- Where the unread bytes start in the block. -/
def lo (r : Reader σ) : Nat := r.window.past.length

/-- Where the unread bytes end in the block. -/
def hi (r : Reader σ) : Nat := r.lo + r.buffered

/-- The length of the block; without one nothing can be touched. -/
def extent (r : Reader σ) : Nat := r.held.getD 0

namespace Checked

/-! ## Checks -/

/-- Touch the bytes `i..j` of the block. -/
def slice (i j : Nat) (r : Reader σ) : Guarded Unit := check (i ≤ j ∧ j ≤ r.extent)

/-- Touch the byte at `i` in the block. -/
def byteAt (i : Nat) (r : Reader σ) : Guarded Unit := check (i < r.extent)

/-- Move the cursor forwards, at most up to the end of the unread bytes. -/
def forward (n : Nat) (r : Reader σ) : Guarded Unit := check (n ≤ r.buffered)

/-- Move the cursor backwards, at most up to the start of the block. -/
def back (n : Nat) (r : Reader σ) : Guarded Unit := check (n ≤ r.lo)

/-- Look at the byte before the cursor. -/
def lastTaken (r : Reader σ) : Guarded Unit := check (0 < r.lo ∧ r.lo ≤ r.extent)

/-- Look at the last of the bytes handed out, which end at the cursor, if there are any. -/
def lastOf (b : Bytes) (r : Reader σ) : Guarded Unit :=
  check (b ≠ [] → 0 < r.lo ∧ r.lo ≤ r.extent)

/-! ## Filling the buffer -/

section Fill

variable [ByteSource σ]

/-- The room offered is what lies from `hi` to the end of the buffer. -/
def fillRounds : (rounds : Nat) → Reader σ → Guarded (Reader σ)
  | 0, r => return r.latch (some .noProgress)
  | rounds + 1, r => do
    slice r.hi r.size r
    let offered := r.size - r.buffered
    let (g, r) ← of (r.draw ⟨offered, r.window.spare⟩)
    let r := { r with window := r.window.receive g.toGrant }
    if g.fault.isSome || 0 < g.count || offered = 0 then return r.latch g.fault
    else fillRounds rounds r

/-- The unread bytes are copied to the start of the block. -/
def fill (r : Reader σ) : Guarded (Reader σ) := do
  let r ← of r.acquire
  slice r.lo r.hi r
  fillRounds maxEmptyReads { r with window := r.window.slide }

def readOnce (r : Reader σ) : Guarded (Reader σ) := do
  let r ← of r.acquire
  slice 0 r.size r
  let r := { r with window := r.window.reset }
  let (g, r) ← of (r.draw ⟨r.size, r.window.spare⟩)
  return { r with window := r.window.receive g.toGrant }.latch g.fault

def fillWhile (wanting : Bytes → Bool) : (rounds : Nat) → Reader σ → Guarded (Reader σ)
  | 0, r => return r
  | rounds + 1, r => do
    slice r.lo r.hi r
    if wanting r.window.unread && r.fault.isNone then do fillWhile wanting rounds (← fill r)
    else return r

def ensure (n : Nat) (r : Reader σ) : Guarded (Reader σ) :=
  fillWhile (fun b => b.length < n) n r

end Fill

/-! ## Bytes -/

section Bytes

variable [ByteSource σ]

def peek (n : Nat) (r : Reader σ) : Guarded (Passage × Reader σ) := do
  let r := { r with lastRune := none }
  if r.size < n then
    return (⟨[], some .bufferFull⟩, r)
  let r ← ensure n r
  let seen := r.window.unread.take n
  slice r.lo (r.lo + seen.length) r
  if seen.length < n then
    return (⟨seen, some (r.fault.getD .bufferFull)⟩, r.cleared)
  return (⟨seen, none⟩, r)

/-- The bytes are copied into room for `n` bytes, and the last of them is looked at there. -/
def deliver (n : Nat) (r : Reader σ) : Guarded (Reading × Reader σ) := do
  let taken := r.window.unread.take n
  slice r.lo r.hi r
  forward taken.length r
  check (0 < taken.length ∧ taken.length ≤ n)
  let r ← of { r with
    window := r.window.advance n, lastByte := taken.getLast?, lastRune := none }.settle
  return (.ofBytes taken none, r)

def deliverOrReport (n : Nat) (r : Reader σ) : Guarded (Reading × Reader σ) := do
  if r.window.unread ≠ [] then
    return ← deliver n r
  let r ← of r.settle
  return (.ofBytes [] r.fault, r.cleared)

/-- The last byte that the source claims to have put into the room is looked at there. -/
def readThrough (room : Room) (r : Reader σ) : Guarded (Reading × Reader σ) := do
  let (g, r) ← of (r.draw room)
  if g.count = 0 then return (g, r)
  check (g.count - 1 < room.size)
  let delivered := g.toGrant.bytesIn room.contents
  return (g, { r with lastByte := delivered.getLast?, lastRune := none })

def read (room : Room) (r : Reader σ) : Guarded (Reading × Reader σ) := do
  let n := room.size
  if n = 0 then
    return (.ofBytes [] r.fault, r.cleared)
  if r.window.unread ≠ [] || r.fault.isSome then
    return ← deliverOrReport n r
  if r.size ≤ n then
    return ← readThrough room r
  deliverOrReport n (← readOnce r)

def takeByte (r : Reader σ) : Guarded (Except Error UInt8 × Reader σ) :=
  match r.window.unread with
  | b :: _ => do
    slice r.lo r.hi r
    forward 1 r
    let r ← of { r with window := r.window.advance 1, lastByte := some b }.settle
    return (.ok b, r)
  | [] => do
    let r ← of r.settle
    match r.fault with
    | some e => return (.error e, r.cleared)
    | none => of (throw .exhausted)

def readByte (r : Reader σ) : Guarded (Except Error UInt8 × Reader σ) := do
  let r ← ensure 1 { r with lastRune := none }
  takeByte r

/-- Starting over writes the first byte of the block. -/
def unreadByte (r : Reader σ) : Guarded (Except Error Unit × Reader σ) := do
  let last := r.lastByte
  let r := { r with lastRune := none, lastByte := none }
  match last with
  | none => return (.error .invalidUnreadByte, r)
  | some b =>
    if r.window.unread = [] then
      let r ← of r.acquire
      byteAt 0 r
      return (.ok (), { r with window := r.window.restart b })
    else if r.window.past = [] then return (.error .invalidUnreadByte, r)
    else do
      back 1 r
      return (.ok (), { r with window := r.window.retreat 1 })

end Bytes

/-! ## Runes -/

section Runes

def ensureRune [ByteSource σ] (r : Reader σ) : Guarded (Reader σ) :=
  fillWhile (fun b => b.length < Rune.maxWidth && !Rune.isSettled b) Rune.maxWidth r

/-- The first byte of the rune is looked at before it is taken, and its last byte afterwards. -/
def readRune [ByteSource σ] (r : Reader σ) : Guarded (Except Error (Char × Nat) × Reader σ) := do
  let r ← ensureRune r
  let r := { r with lastRune := none }
  if r.window.unread = [] then
    let r ← of r.settle
    return (.error (r.fault.getD .eof), r.cleared)
  slice r.lo r.hi r
  byteAt r.lo r
  let (c, width) := Rune.decode r.window.unread
  forward width r
  let window := r.window.advance width
  lastTaken { r with window }
  return (.ok (c, width),
    { r with window, lastByte := window.past.head?, lastRune := some width })

def unreadRune (r : Reader σ) : Guarded (Except Error Unit × Reader σ) := do
  match r.lastRune with
  | some width =>
    if width ≤ r.window.past.length then
      back width r
      return (.ok (),
        { r with window := r.window.retreat width, lastByte := none, lastRune := none })
    else return (.error .invalidUnreadRune, r)
  | none => return (.error .invalidUnreadRune, r)

end Runes

/-! ## Changing hands -/

/-- The unread bytes are copied to the start of the larger block. -/
def regrow (size : Nat) (pool : PoolId) (r : Reader σ) : Guarded (Reader σ) := do
  let grown := withCapacity r.source size pool
  let grown := { grown with fault := r.fault, lastByte := r.lastByte, lastRune := r.lastRune }
  let grown ←
    if r.held.isSome && r.window.unread ≠ [] then do
      let grown ← of grown.acquire
      slice r.lo r.hi r
      slice 0 r.buffered grown
      pure { grown with
        window := { unread := r.window.unread,
                    spare := grown.window.contents.drop r.window.unread.length } }
    else pure grown
  of r.surrender
  return grown

def adapt (size : Nat) (pool : PoolId) (r : Reader σ) : Guarded (Reader σ) :=
  if size ≤ r.size then pure r else regrow size pool r

/-! ## Records -/

section Records

variable [ByteSource σ]

/-- After each filling only the bytes that are new are looked at. -/
def scanRounds (delim : UInt8) : (rounds : Nat) → Reader σ → Guarded (Passage × Reader σ)
  | rounds, r =>
    match r.fault, rounds with
    | some e, _ => do
      let (p, r) := r.handOutAll (some e)
      let r ← if p.bytes = [] then of r.settle else pure r
      return (p, r.cleared)
    | none, 0 => of (throw .exhausted)
    | none, rounds + 1 => do
      let n := r.buffered
      let r ← fill r
      slice n r.hi r
      match (r.window.unread.drop n).idxOf? delim with
      | some i => do
        forward (n + i + 1) r
        return r.handOut (n + i + 1)
      | none =>
        if r.size ≤ r.buffered then return r.handOutAll (some .bufferFull)
        else scanRounds delim rounds r

def scanUntil (delim : UInt8) (r : Reader σ) : Guarded (Passage × Reader σ) := do
  slice r.lo r.hi r
  match r.window.unread.idxOf? delim with
  | some i => do
    forward (i + 1) r
    return r.handOut (i + 1)
  | none => scanRounds delim (r.size + 1) r

/-- The bytes handed out are a slice that ends at the cursor; if there are any, the last is looked
at. -/
def noteDelivered (b : Bytes) (r : Reader σ) : Guarded (Reader σ) := do
  back b.length r
  slice (r.lo - b.length) r.lo r
  lastOf b r
  return r.noteDelivered b

def readSlice (delim : UInt8) (r : Reader σ) : Guarded (Passage × Reader σ) := do
  let (p, r) ← scanUntil delim r
  let r ← noteDelivered p.bytes r
  return (p, r)

/-- The cursor has to stand behind the carriage return that is held back. -/
def holdBackReturn (b : Bytes) (r : Reader σ) : Guarded (Bytes × Reader σ) := do
  lastOf b r
  check (b.getLast? = some carriageReturn → 0 < r.lo)
  return r.holdBackReturn b

def readLine (r : Reader σ) : Guarded (Except Error (Bytes × Bool) × Reader σ) := do
  let (p, r) ← scanUntil newline r
  match p.fault with
  | some .bufferFull => do
    let (b, r) ← holdBackReturn p.bytes r
    let r ← noteDelivered b r
    return (.ok (b, true), r)
  | fault =>
    if p.bytes = [] then
      let r := { r with lastRune := none }
      match fault with
      | some e => return (.error e, r)
      | none => return (.ok ([], false), r)
    let r ← noteDelivered p.bytes r
    return (.ok (stripLineEnd p.bytes, false), r)

def readBytesRounds (delim : UInt8) :
    (rounds : Nat) → (collected : Bytes) → Reader σ → Guarded (Passage × Reader σ)
  | 0, _, _ => of (throw .exhausted)
  | rounds + 1, collected, r => do
    let (p, r) ← readSlice delim r
    match p.fault with
    | some .bufferFull => readBytesRounds delim rounds (collected ++ p.bytes) r
    | fault => return (⟨collected ++ p.bytes, fault⟩, r)

def readBytes (delim : UInt8) (r : Reader σ) : Guarded (Passage × Reader σ) := do
  readBytesRounds delim (← of Act.patience) [] r

def readString (delim : UInt8) (r : Reader σ) :
    Guarded ((String × Option Error) × Reader σ) := do
  let (p, r) ← readBytes delim r
  let r ← of r.settle
  return ((Rune.lossy p.bytes, p.fault), r)

end Records

/-! ## As a plain input -/

section Plain

variable [ByteSource σ]

def plainRead (room : Room) (r : Reader σ) : Guarded (Except IoError Grant × Reader σ) := do
  let (g, r) ← read room r
  of do
    if 0 < g.count then
      return (.ok g.toGrant, r.latch g.fault)
    match g.fault with
    | none | some .eof => return (.ok ⟨[], 0⟩, r)
    | some e => return (.error (← failure e), r)

def showBuffer (r : Reader σ) : Guarded (Except IoError Bytes × Reader σ) := do
  if r.window.unread ≠ [] then
    slice r.lo r.hi r
    return (.ok r.window.unread, r)
  of do
    let r ← r.settle
    match r.fault with
    | none | some .eof => return (.ok [], r.cleared)
    | some e => return (.error (← failure e), r.cleared)

def fillBuf (r : Reader σ) : Guarded (Except IoError Bytes × Reader σ) := do
  if r.window.unread = [] && r.fault.isNone then showBuffer (← fill r) else showBuffer r

def consume (n : Nat) (r : Reader σ) : Guarded (Reader σ) := do
  let taken := r.window.unread.take n
  if taken = [] then
    return r
  forward taken.length r
  lastTaken { r with window := r.window.advance n }
  of { r with window := r.window.advance n, lastByte := taken.getLast?, lastRune := none }.settle

end Plain

/-! ## Emptying into a sink -/

section Transfer

def drain [ByteSink κ] (r : Reader σ) (k : κ) : Guarded (Receipt × Reader σ × κ) := do
  if r.window.unread = [] then
    return (⟨0, none⟩, r, k)
  let pending := r.buffered
  slice r.lo r.hi r
  let (receipt, k) ← of (ByteSink.write k r.window.unread)
  of (Act.require (receipt.count ≤ pending) (.sinkOverrun receipt.count pending))
  let fault :=
    if receipt.fault.isNone && receipt.count < pending then some .shortWrite else receipt.fault
  forward receipt.count r
  let r ← of { r with window := r.window.advance receipt.count }.settle
  return (⟨receipt.count, fault⟩, r, k)

def drainRounds [ByteSource σ] [ByteSink κ] :
    (rounds total : Nat) → Reader σ → κ → Guarded (Receipt × Reader σ × κ)
  | 0, _, _, _ => of (throw .exhausted)
  | rounds + 1, total, r, k => do
    let r ← fill r
    if r.window.unread = [] then
      return (⟨total, none⟩, r, k)
    let (receipt, r, k) ← drain r k
    let total := total + receipt.count
    if receipt.fault.isSome then return (⟨total, receipt.fault⟩, r, k)
    else drainRounds rounds total r k

def writeTo [BulkSource σ] [ByteSink κ] (r : Reader σ) (k : κ) :
    Guarded (Receipt × Reader σ × κ) := do
  let r := { r with lastByte := none, lastRune := none }
  let (first, r, k) ← drain r k
  if first.fault.isSome then
    return (first, r, k)
  let (bulk, source, k) ← of (BulkSource.writeTo r.source k)
  let r := { r with source }
  match bulk with
  | some receipt => return (⟨first.count + receipt.count, receipt.fault⟩, r, k)
  | none =>
    let (rest, r, k) ← drainRounds (← of Act.patience) first.count r k
    if rest.fault.isSome then
      return (rest, r, k)
    let (fault, r) ← of r.concludeTransfer
    return (⟨rest.count, fault⟩, r, k)

end Transfer

/-! ## Operations and tasks -/

/-- Perform an operation, with every access checked. -/
def perform [ByteSource σ] : Op → Reader σ → Guarded (Outcome × Reader σ)
  | .peek n, r => return (← peek n r).map .passage id
  | .read room, r => return (← read room r).map .reading id
  | .readByte, r => return (← readByte r).map .byte id
  | .unreadByte, r => return (← unreadByte r).map .pushed id
  | .readRune, r => return (← readRune r).map .rune id
  | .unreadRune, r => return (← unreadRune r).map .pushed id
  | .readSlice delim, r => return (← readSlice delim r).map .passage id
  | .readLine, r => return (← readLine r).map .line id
  | .readBytes delim, r => return (← readBytes delim r).map .passage id
  | .readString delim, r => return (← readString delim r).map .text id
  | .plainRead room, r => return (← plainRead room r).map .grant id
  | .fillBuf, r => return (← fillBuf r).map .shown id
  | .consume n, r => return (.done, ← consume n r)
  | .adapt size pool, r => return (.done, ← adapt size pool r)

/-- Carry out a task, with every access checked. -/
def execute [BulkSource σ] [ByteSink κ] : Task κ → Reader σ → Guarded (Result κ × Reader σ)
  | .op op, r => return (← perform op r).map .outcome id
  | .writeTo k, r => do
    let (receipt, r, k) ← writeTo r k
    return (.moved receipt k, r)

end Checked

end BufferedStream.Reader
