import BufferedStream.Stream.Plain

/-!
# Sources that follow a script

A scripted source serves its calls from a list of items, front first, so that every outcome a source
may have can be laid down in advance: pieces that are handed out as far as there is room, errors alone
or with the last bytes of a piece, calls that hand out nothing, and claims of bytes never handed out.
-/

namespace BufferedStream.Script

/-- What a source does next. -/
inductive SourceItem where
  /-- Hand out a piece, in as many calls as it takes, with an error in the last of them. -/
  | piece (data : Bytes) (fault : Option Error)
  /-- Hand out nothing, for a number of calls. -/
  | idle (times : Nat)
  /-- Claim to have filled the room and `excess` bytes more. -/
  | claim (excess : Nat)
  deriving Repr, Inhabited

/-- A source that follows a script; without an item the stream has ended. -/
structure Source where
  items : List SourceItem
  /-- What the source does when asked to move everything at once; without an item it cannot. -/
  bulk : List (Bytes × Option Error) := []
  deriving Repr, Inhabited

/-- The items left of an idle one after a call. -/
def idleAgain {α : Type} (idle : Nat → α) (times : Nat) (rest : List α) : List α :=
  if times ≤ 1 then rest else idle (times - 1) :: rest

namespace Source

/-- One read. -/
def read (s : Source) (offered : Nat) : Reading × Source :=
  match s.items with
  | [] => (.ofBytes [] (some .eof), s)
  | .piece data fault :: rest =>
    if data.length ≤ offered then (.ofBytes data fault, { s with items := rest })
    else
      (.ofBytes (data.take offered) none,
        { s with items := .piece (data.drop offered) fault :: rest })
  | .idle times :: rest =>
    (.ofBytes [] none, { s with items := idleAgain .idle times rest })
  | .claim excess :: rest =>
    ({ data := [], count := offered + excess }, { s with items := rest })

/-- One bulk transfer: a single write of the next bulk item. -/
def writeTo {κ : Type} [ByteSink κ] (s : Source) (k : κ) : Act (Option Receipt × Source × κ) := do
  match s.bulk with
  | [] => return (none, s, k)
  | (data, fault) :: rest =>
    let (receipt, k) ← ByteSink.write k data
    return (some ⟨receipt.count, receipt.fault <|> fault⟩, { s with bulk := rest }, k)

instance : BulkSource Source where
  read s room := return s.read room.size
  writeTo s k := s.writeTo k

end Source

/-- What a plain input does next. -/
inductive InputItem where
  /-- Hand out a piece, in as many calls as it takes. -/
  | piece (data : Bytes)
  /-- Fail. -/
  | fail (cause : IoError)
  /-- Hand out nothing, for a number of calls. -/
  | idle (times : Nat)
  /-- Claim to have filled the room and `excess` bytes more. -/
  | claim (excess : Nat)
  deriving Repr, Inhabited

/-- A plain input that follows a script; without an item it hands out nothing. -/
structure Input where
  items : List InputItem
  deriving Repr, Inhabited

namespace Input

/-- One read. -/
def read (s : Input) (offered : Nat) : Except IoError Grant × Input :=
  match s.items with
  | [] => (.ok ⟨[], 0⟩, s)
  | .piece data :: rest =>
    if data.length ≤ offered then (.ok ⟨data, data.length⟩, ⟨rest⟩)
    else (.ok ⟨data.take offered, offered⟩, ⟨.piece (data.drop offered) :: rest⟩)
  | .fail cause :: rest => (.error cause, ⟨rest⟩)
  | .idle times :: rest => (.ok ⟨[], 0⟩, ⟨idleAgain .idle times rest⟩)
  | .claim excess :: rest => (.ok ⟨[], offered + excess⟩, ⟨rest⟩)

instance : PlainInput Input where
  read s room := do
    let (result, s) := s.read room.size
    Act.note (.input room.size ((result.map Grant.count).mapError IoError.kind))
    return (result, s)

end Input

end BufferedStream.Script
