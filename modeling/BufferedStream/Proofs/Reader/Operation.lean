import BufferedStream.Proofs.Reader.Plain
import BufferedStream.Proofs.Reader.Records
import BufferedStream.Proofs.Reader.Runes
import BufferedStream.Proofs.Reader.Transfer
import BufferedStream.Proofs.Run

/-!
# Operations on a reader as data

To speak of runs, the operations on a reader are taken as data: `Reader.Op` for
those that concern the reader alone, `Reader.Task` with the emptying of the
reader into a sink added.

* `Reader.Performs` — what an operation does, whichever it is, with the calls
  that it makes on the source.
* `Reader.perform_meets`, `Reader.execute_meets` — over an honest source every
  operation does one of these things, and leaves a well-formed reader.
-/

namespace BufferedStream

namespace Reader

/-- An operation on a reader. -/
inductive Op where
  | peek (n : Nat)
  | read (room : Room)
  | readByte
  | unreadByte
  | readRune
  | unreadRune
  | readSlice (delim : UInt8)
  | readLine
  | readBytes (delim : UInt8)
  | readString (delim : UInt8)
  | plainRead (room : Room)
  | fillBuf
  | consume (n : Nat)
  | adapt (size : Nat) (pool : PoolId)

/-- What came of an operation. -/
inductive Outcome where
  | passage (p : Passage)
  | reading (g : Reading)
  | byte (b : Except Error UInt8)
  | pushed (u : Except Error Unit)
  | rune (c : Except Error (Char × Nat))
  | line (l : Except Error (Bytes × Bool))
  | text (t : String × Option Error)
  | grant (g : Except IoError Grant)
  | shown (b : Except IoError Bytes)
  | done

variable {σ κ : Type}

/-- Perform an operation. -/
def perform [ByteSource σ] : Op → Reader σ → Act (Outcome × Reader σ)
  | .peek n, r => return (← r.peek n).map .passage id
  | .read room, r => return (← r.read room).map .reading id
  | .readByte, r => return (← r.readByte).map .byte id
  | .unreadByte, r => return (← r.unreadByte).map .pushed id
  | .readRune, r => return (← r.readRune).map .rune id
  | .unreadRune, r => return r.unreadRune.map .pushed id
  | .readSlice delim, r => return (← r.readSlice delim).map .passage id
  | .readLine, r => return (← r.readLine).map .line id
  | .readBytes delim, r => return (← r.readBytes delim).map .passage id
  | .readString delim, r => return (← r.readString delim).map .text id
  | .plainRead room, r => return (← r.plainRead room).map .grant id
  | .fillBuf, r => return (← r.fillBuf).map .shown id
  | .consume n, r => return (.done, ← r.consume n)
  | .adapt size pool, r => return (.done, ← r.adapt size pool)

/-- What operations do, with the calls that they make. -/
inductive Performs [ByteSource σ] (r : Reader σ) :
    Op → List Draw → Outcome → Reader σ → Prop
  | peek {n : Nat} {ds : List Draw} {p : Passage} {r' : Reader σ} (h : r.Peeks n ds p r') :
      Performs r (.peek n) ds (.passage p) r'
  | read {room : Room} {ds : List Draw} {g : Reading} {r' : Reader σ}
      (h : r.ReadsInto room ds g r') : Performs r (.read room) ds (.reading g) r'
  | readByte {ds : List Draw} {b : Except Error UInt8} {r' : Reader σ}
      (h : r.ReadsByte ds b r') : Performs r .readByte ds (.byte b) r'
  | unreadByte {u : Except Error Unit} {r' : Reader σ} (h : r.UnreadsByte u r') :
      Performs r .unreadByte [] (.pushed u) r'
  | readRune {ds : List Draw} {c : Except Error (Char × Nat)} {r' : Reader σ}
      (h : r.ReadsRune ds c r') : Performs r .readRune ds (.rune c) r'
  | unreadRune {u : Except Error Unit} {r' : Reader σ} (h : r.UnreadsRune u r') :
      Performs r .unreadRune [] (.pushed u) r'
  | readSlice {delim : UInt8} {ds : List Draw} {p : Passage} {r₁ : Reader σ}
      (h : r.Scans delim ds p r₁) :
      Performs r (.readSlice delim) ds (.passage p) (r₁.noteDelivered p.bytes)
  | readLine {ds : List Draw} {l : Except Error (Bytes × Bool)} {r' : Reader σ}
      (h : r.ReadsLine ds l r') : Performs r .readLine ds (.line l) r'
  | readBytes {delim : UInt8} {ds : List Draw} {p : Passage} {r' : Reader σ}
      (h : r.Collects delim ds p r') : Performs r (.readBytes delim) ds (.passage p) r'
  | readString {delim : UInt8} {ds : List Draw} {p : Passage} {r₁ r' : Reader σ}
      (h : r.Collects delim ds p r₁) (hs : r₁.Settles r') :
      Performs r (.readString delim) ds (.text (Rune.lossy p.bytes, p.fault)) r'
  | plainRead {room : Room} {ds : List Draw} {g : Except IoError Grant} {r' : Reader σ}
      (h : r.ReadsPlain room ds g r') : Performs r (.plainRead room) ds (.grant g) r'
  | fillBuf {ds : List Draw} {b : Except IoError Bytes} {r' : Reader σ}
      (h : r.ShowsBuffer ds b r') : Performs r .fillBuf ds (.shown b) r'
  | consume {n : Nat} {r' : Reader σ} (h : r.Consumes n r') :
      Performs r (.consume n) [] .done r'
  | adapt {size : Nat} {pool : PoolId} {r' : Reader σ} (h : r.Adapts size pool r') :
      Performs r (.adapt size pool) [] .done r'

theorem Performs.wf [ByteSource σ] {r r' : Reader σ} {op : Op} {ds : List Draw}
    {outcome : Outcome} (hp : r.Performs op ds outcome r') (h : r.WF) : r'.WF := by
  cases hp with
  | peek hp => exact hp.wf h
  | read hr => exact hr.wf h
  | readByte hb => exact hb.wf
  | unreadByte hu => exact hu.wf h
  | readRune hc => exact hc.wf
  | unreadRune hu => exact hu.wf h
  | readSlice hs => exact hs.wf.noteDelivered _
  | readLine hl => exact hl.wf
  | readBytes hc => exact hc.wf
  | readString hc hs => exact hs.wf hc.wf
  | plainRead hg => exact hg.wf h
  | fillBuf hb => exact hb.wf
  | consume hc => exact hc.wf h
  | adapt ha => exact ha.wf h

theorem Performs.calls [ByteSource σ] {r r' : Reader σ} {op : Op} {ds : List Draw}
    {outcome : Outcome} (hp : r.Performs op ds outcome r') : Calls r.source ds r'.source := by
  cases hp with
  | peek hp => exact hp.calls
  | read hr => exact hr.calls
  | readByte hb => exact hb.calls
  | unreadByte hu => exact hu.source_eq ▸ .nil _
  | readRune hc => exact hc.calls
  | unreadRune hu => exact hu.source_eq ▸ .nil _
  | readSlice hs => exact hs.calls
  | readLine hl => exact hl.calls
  | readBytes hc => exact hc.calls
  | readString hc hs => exact hs.source_eq ▸ hc.calls
  | plainRead hg => exact hg.calls
  | fillBuf hb => exact hb.calls
  | consume hc => exact hc.source_eq ▸ .nil _
  | adapt ha => exact ha.source_eq ▸ .nil _

variable {H : Halt → Prop} {sh : Shared}

/-- The operation collects a record, however long it is. -/
def Op.collects : Op → Bool
  | .readBytes _ | .readString _ => true
  | _ => false

/-- What an operation does; only a record that is collected may take too long. -/
theorem perform_meets_of_collects [ByteSource σ] [HonestSource H σ] (op : Op) {r : Reader σ}
    (h : r.WF) (hH : op.collects = true → H .exhausted) :
    Act.Meets H (perform op r) sh fun (outcome, r') _ => ∃ ds, r.Performs op ds outcome r' := by
  cases op with
  | peek n =>
    refine Act.meets_bind.mpr ((peek_meets h n).imp ?_)
    rintro ⟨p, r'⟩ sh' ⟨ds, hp⟩
    exact ⟨ds, .peek hp⟩
  | read room =>
    refine Act.meets_bind.mpr ((read_meets h room).imp ?_)
    rintro ⟨g, r'⟩ sh' ⟨ds, hr⟩
    exact ⟨ds, .read hr⟩
  | readByte =>
    refine Act.meets_bind.mpr ((readByte_meets h).imp ?_)
    rintro ⟨b, r'⟩ sh' ⟨ds, hb⟩
    exact ⟨ds, .readByte hb⟩
  | unreadByte =>
    refine Act.meets_bind.mpr ((unreadByte_meets r).imp ?_)
    rintro ⟨u, r'⟩ sh' hu
    exact ⟨[], .unreadByte hu⟩
  | readRune =>
    refine Act.meets_bind.mpr ((readRune_meets h).imp ?_)
    rintro ⟨c, r'⟩ sh' ⟨ds, hc⟩
    exact ⟨ds, .readRune hc⟩
  | unreadRune => exact ⟨[], .unreadRune r.unreadRune_does⟩
  | readSlice delim =>
    refine Act.meets_bind.mpr ((readSlice_meets h delim).imp ?_)
    rintro ⟨p, r'⟩ sh' ⟨ds, r₁, hs, rfl⟩
    exact ⟨ds, .readSlice hs⟩
  | readLine =>
    refine Act.meets_bind.mpr ((readLine_meets h).imp ?_)
    rintro ⟨l, r'⟩ sh' ⟨ds, hl⟩
    exact ⟨ds, .readLine hl⟩
  | readBytes delim =>
    refine Act.meets_bind.mpr ((readBytes_meets (hH rfl) h delim).imp ?_)
    rintro ⟨p, r'⟩ sh' ⟨ds, hc⟩
    exact ⟨ds, .readBytes hc⟩
  | readString delim =>
    refine Act.meets_bind.mpr ((readString_meets (hH rfl) h delim).imp ?_)
    rintro ⟨t, r'⟩ sh' ⟨ds, p, r₁, hc, rfl, hs⟩
    exact ⟨ds, .readString hc hs⟩
  | plainRead room =>
    refine Act.meets_bind.mpr ((plainRead_meets h room).imp ?_)
    rintro ⟨g, r'⟩ sh' ⟨ds, hg⟩
    exact ⟨ds, .plainRead hg⟩
  | fillBuf =>
    refine Act.meets_bind.mpr ((fillBuf_meets h).imp ?_)
    rintro ⟨b, r'⟩ sh' ⟨ds, hb⟩
    exact ⟨ds, .fillBuf hb⟩
  | consume n =>
    refine Act.meets_bind.mpr ((consume_meets r n).imp ?_)
    intro r' sh' hc
    exact ⟨[], .consume hc⟩
  | adapt size pool =>
    refine Act.meets_bind.mpr ((adapt_meets h size pool).imp ?_)
    intro r' sh' ha
    exact ⟨[], .adapt ha⟩

/-- **What an operation does**, whichever it is. -/
theorem perform_meets [ByteSource σ] [HonestSource H σ] (hH : H .exhausted) (op : Op)
    {r : Reader σ} (h : r.WF) :
    Act.Meets H (perform op r) sh fun (outcome, r') _ => ∃ ds, r.Performs op ds outcome r' :=
  perform_meets_of_collects op h fun _ => hH

/-! ## Emptying into a sink -/

/-- An operation on a reader, or emptying it into a sink. -/
inductive Task (κ : Type) where
  | op (op : Op)
  | writeTo (k : κ)

/-- What came of a task. -/
inductive Result (κ : Type) where
  | outcome (outcome : Outcome)
  | moved (receipt : Receipt) (k : κ)

/-- Carry out a task. -/
def execute [BulkSource σ] [ByteSink κ] : Task κ → Reader σ → Act (Result κ × Reader σ)
  | .op op, r => return (← r.perform op).map .outcome id
  | .writeTo k, r => do
    let (receipt, r, k) ← r.writeTo k
    return (.moved receipt k, r)

/-- What tasks do. -/
inductive Executes [ByteSource σ] [History σ] [ByteSink κ] [Keeping κ] (r : Reader σ) :
    Task κ → Result κ → Reader σ → Prop
  | op {op : Op} {ds : List Draw} {outcome : Outcome} {r' : Reader σ}
      (h : r.Performs op ds outcome r') : Executes r (.op op) (.outcome outcome) r'
  | writeTo {k k' : κ} {receipt : Receipt} {r' : Reader σ} (h : r.WritesTo k receipt r' k') :
      Executes r (.writeTo k) (.moved receipt k') r'

theorem Executes.wf [ByteSource σ] [History σ] [ByteSink κ] [Keeping κ] {r r' : Reader σ}
    {task : Task κ} {result : Result κ} (he : r.Executes task result r') (h : r.WF) : r'.WF := by
  cases he with
  | op hp => exact hp.wf h
  | writeTo hw => exact hw.wf h

theorem execute_meets [BulkSource σ] [HonestSource H σ] [History σ] [BulkHistory H σ]
    [ByteSink κ] [Keeping κ] [HonestSink H κ] (hH : H .exhausted) (task : Task κ) {r : Reader σ}
    (h : r.WF) :
    Act.Meets H (execute task r) sh fun (result, r') _ => r.Executes task result r' := by
  cases task with
  | op op =>
    refine Act.meets_bind.mpr ((perform_meets hH op h).imp ?_)
    rintro ⟨outcome, r'⟩ sh' ⟨ds, hp⟩
    exact .op hp
  | writeTo k =>
    refine Act.meets_bind.mpr ((writeTo_meets hH h k).imp ?_)
    rintro ⟨receipt, r', k'⟩ sh' hw
    exact .writeTo hw

end Reader

end BufferedStream
