import BufferedStream.Proofs.Reader.Delivery
import BufferedStream.Proofs.Script

/-!
# A reader is faithful to its stream

However its operations are mixed, a reader hands out the bytes of its stream in
order, each of them once.  A running account (`Track`) keeps the stream that the
source has handed out so far, the position in it, and the width of the rune read
last; `Reader.Accounts` says how each operation moves it.

* `Reader.Knows.performs`, `Reader.Knows.executes` — every operation keeps the
  reader behind the bytes accounted for.
* `Reader.run_faithful` — the account of a whole run.
-/

namespace BufferedStream

open History (given)
open Keeping (kept)

/-! ## The account -/

/-- The account of a run over a stream. -/
structure Track where
  /-- What the source has handed out so far. -/
  stream : Bytes := []
  /-- The place in the stream up to which bytes have been delivered. -/
  position : Nat := 0
  /-- The width of the rune that was read last. -/
  rune : Nat := 0

/-- The piece of the stream up to a later place was delivered. -/
def Delivers (t : Track) (b : Bytes) (t' : Track) : Prop :=
  t.position ≤ t'.position ∧ b = t'.stream.extract t.position t'.position ∧ t'.rune = t.rune

/-- The place stays where it is. -/
def Stays (t t' : Track) : Prop := t'.position = t.position ∧ t'.rune = t.rune

namespace Reader

/-- How an operation moves the account. -/
def Accounts : Op → Outcome → Track → Track → Prop
  | .peek _, .passage p, t, t' => p.bytes <+: t'.stream.drop t.position ∧ Stays t t'
  | .read _, .reading g, t, t' => Delivers t g.data t' ∧ g.count = g.data.length
  | .readByte, .byte (.ok b), t, t' => Delivers t [b] t'
  | .unreadByte, .pushed (.ok _), t, t' => t.position = t'.position + 1 ∧ t'.rune = t.rune
  | .readRune, .rune (.ok (c, width)), t, t' =>
    (c, width) = Rune.decode (t'.stream.drop t.position) ∧ 0 < width ∧
      t'.position = t.position + width ∧ t'.rune = width
  | .unreadRune, .pushed (.ok _), t, t' =>
    t.position = t'.position + t.rune ∧ t'.rune = t.rune
  | .readSlice _, .passage p, t, t' => Delivers t p.bytes t'
  | .readLine, .line (.ok (l, isPiece)), t, t' =>
    ∃ b, Delivers t b t' ∧ if isPiece then l = b else Unterminated b l
  | .readBytes _, .passage p, t, t' => Delivers t p.bytes t'
  | .readString _, .text s, t, t' => ∃ b, Delivers t b t' ∧ s.1 = Rune.lossy b
  | .plainRead _, .grant (.ok g), t, t' => Delivers t g.data t' ∧ g.count = g.data.length
  | .fillBuf, .shown (.ok b), t, t' => b <+: t'.stream.drop t.position ∧ Stays t t'
  | .consume n, .done, t, t' =>
    t'.position = min (t.position + n) t'.stream.length ∧ t'.rune = t.rune
  | .adapt _ _, .done, t, t' => Stays t t'
  | .readByte, .byte (.error _), t, t' => Stays t t'
  | .unreadByte, .pushed (.error _), t, t' => Stays t t'
  | .readRune, .rune (.error _), t, t' => Stays t t'
  | .unreadRune, .pushed (.error _), t, t' => Stays t t'
  | .readLine, .line (.error _), t, t' => Stays t t'
  | .plainRead _, .grant (.error _), t, t' => Stays t t'
  | .fillBuf, .shown (.error _), t, t' => Stays t t'
  | _, _, _, _ => False

/-- How a task moves the account; emptying delivers to the sink. -/
def TaskAccounts {κ : Type} [Keeping κ] : Task κ → Result κ → Track → Track → Prop
  | .op op, .outcome outcome, t, t' => Accounts op outcome t t'
  | .writeTo k, .moved _ k', t, t' => ∃ b, Delivers t b t' ∧ kept k' = kept k ++ b
  | _, _, _, _ => False

/-- The account of one entry of a run; the stream only grows, and what is unread
is what follows the place in it. -/
structure Accounted {σ κ : Type} [ByteSource σ] [History σ] [Keeping κ]
    (entry : Entry (Task κ) (Result κ) (Reader σ)) (t t' : Track) : Prop where
  moves : TaskAccounts entry.op entry.outcome t t'
  grows : t.stream <+: t'.stream
  stream : t'.stream = given entry.state.source
  position_le : t'.position ≤ t'.stream.length
  unread : entry.state.window.unread = t'.stream.drop t'.position

/-! ## Keeping the account -/

variable {σ κ : Type} [ByteSource σ] [History σ] {r r' : Reader σ} {c : Bytes} {width : Nat}

/-- The account of a reader that stands behind `c`. -/
def track (r : Reader σ) (c : Bytes) (width : Nat) : Track := ⟨given r.source, c.length, width⟩

/-- The account tells where the reader stands. -/
def At (r : Reader σ) (t : Track) : Prop := ∃ c width, r.Knows c width ∧ t = r.track c width

theorem At.wf {t : Track} (h : r.At t) : r.WF := by
  obtain ⟨c, width, hk, -⟩ := h
  exact hk.wf

theorem Knows.delivers {b : Bytes} (h : r'.Knows (c ++ b) width) :
    Delivers (r.track c width) b (r'.track (c ++ b) width) := by
  refine ⟨?_, ?_, rfl⟩
  · simp [track]
  · show b = (given r'.source).extract c.length (c ++ b).length
    rw [h.given, List.extract_eq_take_drop, List.append_assoc, List.drop_left, List.length_append,
      Nat.add_sub_cancel_left, List.take_left]

theorem Knows.unread_eq (h : r.Knows c width) :
    r.window.unread = (given r.source).drop c.length := by
  rw [h.given, List.drop_left]

/-- **Every operation keeps the account.** -/
theorem Knows.performs {op : Op} {ds : List Draw} {outcome : Outcome} (h : r.Knows c width)
    (hp : r.Performs op ds outcome r') :
    ∃ c' width', r'.Knows c' width' ∧
      Accounts op outcome (r.track c width) (r'.track c' width') := by
  cases hp with
  | peek hp =>
    obtain ⟨hk, hpre⟩ := h.peeks hp
    exact ⟨c, width, hk, hk.unread_eq ▸ hpre, rfl, rfl⟩
  | read hr =>
    obtain ⟨hk, hcount⟩ := h.readsInto hr
    exact ⟨_, width, hk, hk.delivers, hcount⟩
  | @readByte _ b _ hb =>
    have hk := h.readsByte hb
    refine ⟨_, width, hk, ?_⟩
    cases b with
    | ok b => exact hk.delivers
    | error e =>
      rw [orNone, List.append_nil]
      exact ⟨rfl, rfl⟩
  | @unreadByte u _ hu =>
    obtain ⟨c', b, rfl, hk, hlen⟩ := h.unreadsByte hu
    refine ⟨c', width, hk, ?_⟩
    cases u with
    | ok u => exact ⟨by rw [track, List.length_append, hlen]; rfl, rfl⟩
    | error e => exact ⟨by rw [track, track, List.length_append, hlen]; rfl, rfl⟩
  | readRune hc =>
    rcases h.readsRune hc with ⟨b, hch, hpos, hwidth, hk⟩ | ⟨e, rfl, hk⟩
    · have hdrop : (given r'.source).drop c.length = b ++ r'.window.unread := by
        rw [hk.given, List.append_assoc, List.drop_left]
      refine ⟨c ++ b, b.length, hk, ?_⟩
      cases hdecode : Rune.decode (b ++ r'.window.unread) with
      | mk ch w =>
        rw [hdecode] at hch hwidth
        subst hch
        dsimp only at hwidth
        subst hwidth
        refine ⟨?_, hpos, List.length_append, rfl⟩
        rw [← hdecode, ← hdrop]
        rfl
    · exact ⟨c, width, hk, rfl, rfl⟩
  | @unreadRune u _ hu =>
    obtain ⟨c', b, rfl, hk, hlen⟩ := h.unreadsRune hu
    refine ⟨c', width, hk, ?_⟩
    cases u with
    | ok u => exact ⟨by rw [track, List.length_append, hlen]; rfl, rfl⟩
    | error e => exact ⟨by rw [track, track, List.length_append, hlen]; rfl, rfl⟩
  | readSlice hs =>
    have hk := (h.toStands.scans hs).noteDelivered width
    exact ⟨_, width, hk, hk.delivers⟩
  | readLine hl =>
    rcases h.readsLine hl with ⟨b, line, isPiece, rfl, hk, hline⟩ | ⟨e, rfl, hk⟩
    · exact ⟨c ++ b, width, hk, b, hk.delivers, hline⟩
    · exact ⟨c, width, hk, rfl, rfl⟩
  | readBytes hc =>
    have hk := h.toStands.collects hc width
    exact ⟨_, width, hk, hk.delivers⟩
  | readString hc hs =>
    have hk := (h.toStands.collects hc width).settles hs
    exact ⟨_, width, hk, _, hk.delivers, rfl⟩
  | @plainRead _ _ g _ hg =>
    obtain ⟨hk, hcount⟩ := h.readsPlain hg
    refine ⟨_, width, hk, ?_⟩
    cases g with
    | ok g => exact ⟨hk.delivers, hcount g rfl⟩
    | error e =>
      rw [orNone, List.append_nil]
      exact ⟨rfl, rfl⟩
  | @fillBuf _ b _ hb =>
    obtain ⟨hk, hshown⟩ := h.showsBuffer hb
    refine ⟨c, width, hk, ?_⟩
    cases b with
    | ok b =>
      refine ⟨?_, rfl, rfl⟩
      rw [hshown b rfl, hk.unread_eq]
      exact List.prefix_rfl
    | error e => exact ⟨rfl, rfl⟩
  | @consume n _ hc =>
    have hk := h.consumes hc
    refine ⟨_, width, hk, ?_, rfl⟩
    show (c ++ r.window.unread.take n).length = min (c.length + n) (given r'.source).length
    rw [hc.source_eq, h.given, List.length_append, List.length_append, List.length_take]
    omega
  | adapt ha => exact ⟨c, width, h.adapts ha, rfl, rfl⟩

/-- Every task keeps the account. -/
theorem Knows.executes [ByteSink κ] [Keeping κ] {task : Task κ} {result : Result κ}
    (h : r.Knows c width) (he : r.Executes task result r') :
    ∃ c' width', r'.Knows c' width' ∧ given r.source <+: given r'.source ∧
      TaskAccounts task result (r.track c width) (r'.track c' width') := by
  cases he with
  | op hp =>
    obtain ⟨c', width', hk, haccounts⟩ := h.performs hp
    refine ⟨c', width', hk, ?_, haccounts⟩
    rw [given_of_calls hp.calls]
    exact List.prefix_append ..
  | writeTo hw =>
    obtain ⟨b, hk, hkept⟩ := h.toStands.writesTo hw width
    exact ⟨c ++ b, width, hk, hw.given_prefix, b, hk.delivers, hkept⟩

theorem At.executes [ByteSink κ] [Keeping κ] {task : Task κ} {result : Result κ} {t : Track}
    (h : r.At t) (he : r.Executes task result r') :
    ∃ t', Accounted ⟨task, result, r'⟩ t t' ∧ r'.At t' := by
  obtain ⟨c, width, hk, rfl⟩ := h
  obtain ⟨c', width', hk', hgrows, haccounts⟩ := hk.executes he
  refine ⟨r'.track c' width', ⟨haccounts, hgrows, rfl, ?_, hk'.unread_eq⟩, c', width', hk', rfl⟩
  show c'.length ≤ (given r'.source).length
  rw [hk'.given, List.length_append]
  exact Nat.le_add_right ..

/-- **A reader is faithful to its stream.**  Over any honest source, with a buffer
of any size and any pools, every run of operations keeps an account that starts
at the front of an empty stream. -/
theorem run_faithful {σ κ : Type} [BulkSource σ] [HonestSource (· = Halt.exhausted) σ]
    [HonestBulkSource (· = Halt.exhausted) σ] [ByteSink κ] [Keeping κ]
    [HonestSink (· = Halt.exhausted) κ] (s : σ) (size : Nat) (pool : PoolId)
    (tasks : List (Task κ)) (sh : Shared) :
    Act.Keeps (Act.performAll execute tasks (withCapacity (Traced.start s) size pool)) sh
      fun entries _ => entries.map Entry.op = tasks ∧ Follows Accounted {} entries := by
  have hstart : (withCapacity (Traced.start s) size pool).At {} :=
    ⟨[], 0, knows_withCapacity _ size pool, rfl⟩
  have hstep : ∀ (task : Task κ) (r : Reader (Traced σ)) sh, (∃ t, r.At t) →
      Act.Keeps (execute task r) sh fun (result, r') _ =>
        r.Executes task result r' ∧ ∃ t, r'.At t := by
    rintro task r sh ⟨t, ht⟩
    refine (execute_meets (H := (· = Halt.exhausted)) rfl task ht.wf).imp ?_
    rintro ⟨result, r'⟩ sh' he
    obtain ⟨t', -, ht'⟩ := ht.executes he
    exact ⟨he, t', ht'⟩
  refine (Act.performAll_meets tasks (fun task _ => hstep task) ⟨_, hstart⟩ sh).imp ?_
  rintro entries sh' ⟨hchain, hops⟩
  exact ⟨hops, hchain.follows (fun r t task result r' ht he => ht.executes he) hstart⟩

/-- A source that breaks off in the middle, recovers, and has nothing for a while. -/
def interrupted : Script.Truthful where
  source :=
    { items := [.piece [0x68, 0x69, 0x0d, 0x0a] (some .noProgress), .idle 2,
        .piece [0x61, 0x62, 0x63] (some .eof)] }

/-- Bytes are looked at, taken and pushed back, a line is read, and the rest is
moved to a sink. -/
def mixedTasks : List (Task MemorySink) :=
  [.op (.peek 2), .op .readByte, .op .unreadByte, .op .readRune, .op .unreadRune,
    .op .readLine, .op .readByte, .op (.read ⟨20, []⟩), .op .unreadByte, .writeTo {}]

theorem run_faithful_interrupted :
    ∃ entries sh',
      Act.performAll execute mixedTasks (withCapacity (Traced.start interrupted) 16 0)
        { pools := [], patience := 9 } = .ok entries sh' ∧
      entries.map Entry.op = mixedTasks ∧ Follows Accounted {} entries :=
  (run_faithful interrupted 16 0 mixedTasks _).exists_of_ends (by decide +kernel)

end Reader

end BufferedStream
