import BufferedStream.Proofs.Reader.Roomy
import BufferedStream.Proofs.Writer.Operation

/-!
# No source is asked for nothing

A writer draws a source into the room that is left in its buffer, and makes room before
every call; a memory sink offers room for a chunk.  With what is known of readers this
covers every call on a source that a stream makes on its own.

* `Writer.Reachable` — the states that a writer may be in.
* `OffersRoom` — what was done to a source offered room in every call.
* `Writer.readFrom_offers` — a writer that draws a source itself does so.
* `calls_offer_room` — readers, writers and memory sinks together; only a scan on a buffer
  that is full already may make a call without room, and only as its first.
-/

namespace BufferedStream

open History (draws)

/-- Every call that was made on the source offered room for a byte at least. -/
def OffersRoom {σ : Type} [ByteSource σ] [History σ] (s s' : σ) : Prop :=
  ∃ ds, draws s' = draws s ++ ds ∧ ∀ d ∈ ds, 0 < d.offered

/-- A memory sink offers room for a chunk in every call. -/
theorem MemorySink.readFrom_offers {σ : Type} [ByteSource σ] [History σ]
    [HonestSource (· = Halt.exhausted) σ] (m : MemorySink) (s : σ) (sh : Shared) :
    Act.Keeps (BulkSink.readFrom m s) sh fun (_, _, s') _ => OffersRoom s s' := by
  show Act.Keeps (m.readFrom s) sh _
  refine Act.meets_bind.mpr (Act.meets_patience.mpr ?_)
  refine (readRounds_meets (H := (· = Halt.exhausted)) rfl _ _ m s).imp ?_
  intro ⟨receipt, m', s'⟩ sh' ⟨ds, _, hcalls, hoffered, _⟩
  refine ⟨ds, draws_of_calls hcalls, fun d hd => ?_⟩
  rw [hoffered d hd]
  decide

namespace Writer

variable {σ κ : Type}

/-! ## The states of a writer -/

/-- The states that a writer may be in: new over a sink, or left by an operation, which may
draw any honest source.  What streams share may change in between. -/
inductive Reachable [BulkSink κ] : Writer κ → Prop
  | start {k : κ} {size : Nat} {pool : PoolId} {w : Writer κ} {sh sh' : Shared}
      (hnew : withCapacity k size pool sh = .ok w sh') : Reachable w
  | step {ν : Type} [ByteSource ν] [HonestSource (· = Halt.exhausted) ν] {w w' : Writer κ}
      {op : Op ν} {outcome : Outcome ν} {sh sh' : Shared} (h : Reachable w)
      (hrun : perform op (.writing w) sh = .ok (outcome, .writing w') sh') : Reachable w'

/-- By induction on the operations: every state is well-formed. -/
theorem Reachable.wf [BulkSink κ] [Keeping κ] [HonestSink (· = Halt.exhausted) κ]
    [HonestBulkSink (· = Halt.exhausted) κ] {w : Writer κ} (h : w.Reachable) : w.WF := by
  induction h with
  | @start k size pool w sh sh' hnew =>
    exact ((withCapacity_meets (H := (· = Halt.exhausted)) k size pool).of_ok hnew).1.wf
  | step _ hrun ih =>
    exact ((perform_meets (H := (· = Halt.exhausted)) rfl _ ih).of_ok hrun).wf ih

/-! ## Drawing a source -/

section Drawing

variable [ByteSink κ] [Keeping κ]

/-- By induction on the calls: room is made before each. -/
theorem Draws.roomy [ByteSource σ] {w w' : Writer κ} {s s' : σ} {ss : List Send} {ds : List Draw}
    {receipt : Receipt} (h : Draws w s ss ds receipt w' s') (hw : w.WF) :
    ∀ d ∈ ds, 0 < d.offered := by
  induction h with
  | failed => simp
  | last hm hnone =>
    intro d hd
    obtain rfl := List.mem_singleton.mp hd
    exact hm.available_pos hw hnone
  | more hm hnone hf _ _ ih =>
    intro d hd
    rcases List.mem_cons.mp hd with rfl | hd
    · exact hm.available_pos hw hnone
    · exact ih (hf.wf (hm.wf hw)) d hd

end Drawing

section ReadFrom

variable [BulkSink κ] [ByteSource σ]

/-- With nothing queued, the sink drew the source itself, and the writer made no call. -/
def LeftToSink (w : Writer κ) (s : σ) (sh : Shared) (receipt : Receipt) (w' : Writer κ) (s' : σ) :
    Prop :=
  w.queued = [] ∧ ∃ sh', BulkSink.readFrom w.sink s sh = .ok (some receipt, w'.sink, s') sh'

/-- **A writer that draws a source itself offers room in every call.** -/
theorem readFrom_offers [Keeping κ] [HonestSink (· = Halt.exhausted) κ]
    [HonestBulkSink (· = Halt.exhausted) κ] [HonestSource (· = Halt.exhausted) σ] [History σ]
    {w : Writer κ} (hw : w.WF) (s : σ) (sh : Shared) :
    Act.Keeps (w.readFrom s) sh fun (receipt, w', s') _ =>
      w.LeftToSink s sh receipt w' s' ∨ OffersRoom s s' := by
  have hturns : ∀ sh, Act.Keeps (do w.drawRounds (← Act.patience) 0 s) sh
      fun (_, _, s') _ => OffersRoom s s' := by
    intro sh
    refine Act.meets_bind.mpr (Act.meets_patience.mpr
      ((drawRounds_meets (H := (· = Halt.exhausted)) rfl _ 0 w s).imp ?_))
    intro ⟨receipt, w', s'⟩ sh' ⟨ss, ds, _, hd, _⟩
    exact ⟨ds, draws_of_calls hd.calls, hd.roomy hw⟩
  unfold readFrom
  split
  · exact .inr ⟨[], (List.append_nil _).symm, by simp⟩
  · split
    · rename_i hqueued
      refine Act.meets_bind.mpr
        ((HonestBulkSink.readFrom_honest (H := (· = Halt.exhausted)) w.sink s sh).ran.imp ?_)
      intro ⟨receipt, k, s'⟩ sh' ⟨hran, hbulk⟩
      cases receipt with
      | none =>
        obtain ⟨rfl, rfl⟩ := hbulk
        exact (hturns sh').imp fun _ _ h => .inr h
      | some receipt => exact .inl ⟨hqueued, sh', hran⟩
    · exact (hturns sh).imp fun _ _ h => .inr h

end ReadFrom

end Writer

/-! ## All calls -/

/-- **No source is asked for nothing**, but for the first call of a scan that starts on a
full buffer without the delimiter and without a latched error.  Over honest sources and
sinks, in every state that a reader or a writer may be in:

* the calls of every operation on the reader, and of emptying it into a sink, offer room for
  a byte, all but the first in any case, and the first unless the operation is such a scan;
* a scan that starts on a full buffer without the delimiter hands out the whole buffer and
  reports the latched error, which it forgets without a call, or else the full buffer;
* a writer that draws a source offers room in every call, or its sink draws the source;
* a memory sink offers room in every call. -/
theorem calls_offer_room {σ ν κ : Type} [BulkSource σ] [HonestSource (· = Halt.exhausted) σ]
    [HonestBulkSource (· = Halt.exhausted) σ] [ByteSource ν] [HonestSource (· = Halt.exhausted) ν]
    [BulkSink κ] [Keeping κ] [HonestSink (· = Halt.exhausted) κ]
    [HonestBulkSink (· = Halt.exhausted) κ] {r : Reader (Traced σ)} (hr : r.Reachable)
    {w : Writer κ} (hw : w.Reachable) (m : MemorySink) (s : Traced ν) (sh : Shared) :
    (∀ task : Reader.Task κ, Act.Keeps (Reader.execute task r) sh fun (_, r') _ => ∃ ds,
      draws r'.source = draws r.source ++ ds ∧ (∀ d ∈ ds.tail, 0 < d.offered) ∧
        (¬ task.StartsCrammed r → ∀ d ∈ ds, 0 < d.offered)) ∧
    (∀ delim, r.size ≤ r.buffered → delim ∉ r.window.unread →
      Act.Keeps (r.scanUntil delim) sh fun (p, r') _ =>
        p = ⟨r.window.unread, some (r.fault.getD .bufferFull)⟩ ∧
          (r.fault ≠ none → r'.source = r.source ∧ r'.fault = none)) ∧
    (Act.Keeps (w.readFrom s) sh fun (receipt, w', s') _ =>
      w.LeftToSink s sh receipt w' s' ∨ OffersRoom s s') ∧
    Act.Keeps (BulkSink.readFrom m s) sh fun (_, _, s') _ => OffersRoom s s' := by
  refine ⟨fun task => Reader.execute_offers hr task sh, ?_, Writer.readFrom_offers hw.wf s sh,
    m.readFrom_offers s sh⟩
  intro delim hfull hmissing
  cases hfault : r.fault with
  | none =>
    refine (Reader.scanUntil_crammed (H := (· = Halt.exhausted)) hr.wf
      ⟨hfull, hmissing, hfault⟩).imp ?_
    intro ⟨p, r'⟩ sh' ⟨hp, _⟩
    exact ⟨hp, fun hne => absurd rfl hne⟩
  | some e =>
    refine (Reader.scanUntil_latched hmissing hfault).imp ?_
    intro ⟨p, r'⟩ sh' ⟨hp, hsource, hnone⟩
    exact ⟨hp, fun _ => ⟨hsource, hnone⟩⟩

/-- Sixteen letters, with what comes with them. -/
def sixteen (fault : Option Error) : Script.Truthful where
  source :=
    { items := [.piece [0x41, 0x42, 0x43, 0x44, 0x45, 0x46, 0x47, 0x48, 0x49, 0x4a, 0x4b, 0x4c,
        0x4d, 0x4e, 0x4f, 0x50] fault] }
  truthful := rfl

/-- A buffer that the letters have filled. -/
def filledBySixteen (fault : Option Error) : Reader (Traced Script.Truthful) :=
  match (Reader.withCapacity (Traced.start (sixteen fault)) 16 0).peek 16 { pools := [] } with
  | .ok (_, r) _ => r
  | .error _ _ => Reader.withCapacity (Traced.start (sixteen fault)) 16 0

theorem execute_filledBySixteen (fault : Option Error) :
    Reader.execute (.op (.peek 16) : Reader.Task MemorySink)
        (Reader.withCapacity (Traced.start (sixteen fault)) 16 0) { pools := [] } =
      .ok (.outcome (.passage ⟨(filledBySixteen fault).window.unread, none⟩),
        filledBySixteen fault) { pools := [] } := by
  cases fault <;> rfl

theorem calls_offer_room_sixteen :
    (filledBySixteen (some .eof)).Reachable ∧
      ∃ a sh', (filledBySixteen (some .eof)).scanUntil Reader.newline { pools := [] } = .ok a sh' ∧
        a.1 = ⟨(filledBySixteen (some .eof)).window.unread, some .eof⟩ ∧
          a.2.source = (filledBySixteen (some .eof)).source ∧ a.2.fault = none := by
  have hreached : (filledBySixteen (some .eof)).Reachable :=
    .step (.start (Traced.start (sixteen (some .eof))) 16 0) (execute_filledBySixteen (some .eof))
  obtain ⟨-, hscan, -, -⟩ := calls_offer_room hreached
    (w := ({ sink := ({} : MemorySink), size := 16, pool := 0 } : Writer MemorySink))
    (.start (show Writer.withCapacity {} 16 0 { pools := [] } = .ok _ _ from rfl)) {}
    (Traced.start (sixteen none)) { pools := [] }
  obtain ⟨a, sh', hok, hp, hlatched⟩ :=
    (hscan Reader.newline (by decide) (by decide)).exists_of_ends (by decide +kernel)
  exact ⟨hreached, a, sh', hok, hp, hlatched (by decide)⟩

/-- With the buffer full, a scan asks the source for nothing; and with the end latched it
reports that, not the full buffer, and forgets it. -/
theorem sixteen_asked_for_nothing :
    (∃ r sh, (filledBySixteen none).readSlice Reader.newline { pools := [] } =
        .ok (⟨(filledBySixteen none).window.unread, some .bufferFull⟩, r) sh ∧
      ∃ d, draws r.source = draws (filledBySixteen none).source ++ [d] ∧ d.offered = 0) ∧
    ∃ r sh, (filledBySixteen (some .eof)).readSlice Reader.newline { pools := [] } =
        .ok (⟨(filledBySixteen (some .eof)).window.unread, some .eof⟩, r) sh ∧
      (filledBySixteen (some .eof)).fault = some .eof ∧ r.fault = none :=
  ⟨⟨_, _, rfl, _, rfl, rfl⟩, _, _, rfl, rfl, rfl⟩

end BufferedStream
