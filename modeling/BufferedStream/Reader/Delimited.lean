import BufferedStream.Reader.Basic

/-!
# Records up to a delimiter

A record ends with the first delimiter.  The scan looks at every unread byte once; if the buffer
fills up before a delimiter is found, what it holds is handed out as a piece of the record.
-/

namespace BufferedStream.Reader

variable {σ : Type} [ByteSource σ]

/-- The byte that ends a line. -/
def newline : UInt8 := 0x0a

/-- The byte that may stand before the end of a line. -/
def carriageReturn : UInt8 := 0x0d

/-- Hand out everything unread. -/
def handOutAll (fault : Option Error) (r : Reader σ) : Passage × Reader σ :=
  (⟨r.window.unread, fault⟩, { r with window := r.window.exhaust })

/-- Hand out the next `n` bytes as a whole record. -/
def handOut (n : Nat) (r : Reader σ) : Passage × Reader σ :=
  (⟨r.window.unread.take n, none⟩, { r with window := r.window.advance n })

/-- Fill until a delimiter comes, an error is latched or the buffer is full, at most a given number
of times. -/
def scanRounds (delim : UInt8) : (rounds : Nat) → Reader σ → Act (Passage × Reader σ)
  | rounds, r =>
    match r.fault, rounds with
    | some e, _ => do
      let (p, r) := r.handOutAll (some e)
      let r ← if p.bytes = [] then r.settle else pure r
      return (p, r.cleared)
    | none, 0 => throw .exhausted
    | none, rounds + 1 => do
      let n := r.buffered
      let r ← r.fill
      match (r.window.unread.drop n).idxOf? delim with
      | some i => return r.handOut (n + i + 1)
      | none =>
        if r.size ≤ r.buffered then return r.handOutAll (some .bufferFull)
        else scanRounds delim rounds r

/-- Hand out the bytes up to the first delimiter, or as many as can be had.  Every filling brings a
byte, an error or a full buffer, so the size of the buffer bounds their number. -/
def scanUntil (delim : UInt8) (r : Reader σ) : Act (Passage × Reader σ) :=
  match r.window.unread.idxOf? delim with
  | some i => return r.handOut (i + 1)
  | none => scanRounds delim (r.size + 1) r

/-- Remember the last of the bytes handed out. -/
def noteDelivered (b : Bytes) (r : Reader σ) : Reader σ :=
  { r with lastRune := none, lastByte := b.getLast? }

/-- The bytes up to and including the first delimiter, as far as the buffer holds them.  A fault is
reported exactly if the delimiter is missing. -/
def readSlice (delim : UInt8) (r : Reader σ) : Act (Passage × Reader σ) := do
  let (p, r) ← r.scanUntil delim
  return (p, r.noteDelivered p.bytes)

/-- A piece of a line with the carriage return at its end held back, so that the next call can see
whether it belongs to the end of the line. -/
def holdBackReturn (b : Bytes) (r : Reader σ) : Bytes × Reader σ :=
  if b.getLast? = some carriageReturn then
    (b.dropLast, { r with window := r.window.retreat 1 })
  else (b, r)

/-- A line without its end. -/
def stripLineEnd (b : Bytes) : Bytes :=
  if b.getLast? = some newline then
    if b.dropLast.getLast? = some carriageReturn then b.dropLast.dropLast else b.dropLast
  else b

/-- The next line without its end, and whether it is only a piece of one that does not fit into the
buffer.  A stream that ends inside a line yields that line; an error is reported only if there is no
byte to return. -/
def readLine (r : Reader σ) : Act (Except Error (Bytes × Bool) × Reader σ) := do
  let (p, r) ← r.scanUntil newline
  match p.fault with
  | some .bufferFull =>
    let (b, r) := r.holdBackReturn p.bytes
    return (.ok (b, true), r.noteDelivered b)
  | fault =>
    if p.bytes = [] then
      let r := { r with lastRune := none }
      match fault with
      | some e => return (.error e, r)
      | none => return (.ok ([], false), r)
    return (.ok (stripLineEnd p.bytes, false), r.noteDelivered p.bytes)

/-- Collect the pieces of a record. -/
def readBytesRounds (delim : UInt8) :
    (rounds : Nat) → (collected : Bytes) → Reader σ → Act (Passage × Reader σ)
  | 0, _, _ => throw .exhausted
  | rounds + 1, collected, r => do
    let (p, r) ← r.readSlice delim
    match p.fault with
    | some .bufferFull => readBytesRounds delim rounds (collected ++ p.bytes) r
    | fault => return (⟨collected ++ p.bytes, fault⟩, r)

/-- The bytes up to and including the first delimiter, however long the record.  A fault is reported
exactly if the delimiter is missing. -/
def readBytes (delim : UInt8) (r : Reader σ) : Act (Passage × Reader σ) := do
  readBytesRounds delim (← Act.patience) [] r

/-- The same as a text, with replacements for what is no text. -/
def readString (delim : UInt8) (r : Reader σ) : Act ((String × Option Error) × Reader σ) := do
  let (p, r) ← r.readBytes delim
  let r ← r.settle
  return ((Rune.lossy p.bytes, p.fault), r)

end BufferedStream.Reader
