import BufferedStream.Proofs.Script
import BufferedStream.Proofs.Writer.Operation

/-!
# A writer conserves what it accepts

However its operations are mixed, and wherever its sink fails, a writer answers for
the initial content of its sink and the bytes that it has accepted since, in order
and each of them once.

* `Writer.Accepts` — the bytes that an operation accepts, told from its outcome.
* `Writer.Performs.conserves` — every operation adds just these bytes.
* `Writer.run_conserves` — the bytes of a whole run.
-/

namespace BufferedStream

open Keeping (kept)

namespace Writer

variable {ν κ : Type} [ByteSource ν]

/-! ## The bytes accepted -/

/-- The first bytes were accepted, so many as were counted. -/
def AcceptsFront (b : Bytes) (n : Nat) (c : Bytes) : Prop := n ≤ b.length ∧ c = b.take n

/-- The bytes that an operation accepts, told from its outcome and the stage that it
leaves. -/
def Accepts : Op ν → Outcome ν → Stage κ → Bytes → Prop
  | .write b, .receipt receipt, .writing _, c => AcceptsFront b receipt.count c
  | .writeText s, .receipt receipt, .writing _, c =>
    AcceptsFront (Bytes.ofText s) receipt.count c
  | .writeByte b, .byte (.ok _), .writing _, c => c = [b]
  | .writeByte _, .byte (.error _), .writing _, c => c = []
  | .writeRune ch, .rune (.ok n), .writing _, c => c = Rune.encode ch ∧ n = c.length
  | .writeRune ch, .rune (.error _), .writing w, c =>
    c <+: Rune.encode ch ∧ (Rune.maxWidth ≤ w.size → c = [])
  | .readFrom s, .drew receipt t, .writing _, c =>
    Calls s t.draws t.source ∧ c = drawn t.draws ∧ receipt.count = c.length
  | .flush, .flushed _, .writing _, c => c = []
  | .plainWrite b, .plain (.ok n), .writing _, c => AcceptsFront b n c
  | .plainWrite _, .plain (.error _), .writing _, c => c = []
  | .plainFlush, .plainFlushed _, .writing _, c => c = []
  | .adapt _ _, .done, .writing _, c => c = []
  | .intoSink, .refused _, .writing _, c => c = []
  | .intoSink, .returned, .ended _, c => c = []
  | _, .nothing, .ended _, c => c = []
  | _, _, _, _ => False

/-- The bytes that a stage answers for: without a writer those of the sink. -/
def Stage.holds [Keeping κ] : Stage κ → Bytes
  | .writing w => w.holds
  | .ended k => kept k

/-- One entry of a run conserves: what the stage answers for is what the sink held
at first, and then all the bytes accepted. -/
def Conserved [Keeping κ] (initial : Bytes) (entry : Entry (Op ν) (Outcome ν) (Stage κ))
    (accepted accepted' : Bytes) : Prop :=
  (∃ c, Accepts entry.op entry.outcome entry.state c ∧ accepted' = accepted ++ c) ∧
    entry.state.holds = initial ++ accepted'

/-! ## Every operation conserves -/

variable [BulkSink κ] [Keeping κ] {w w' : Writer κ}

theorem Writes.conserves {b : Bytes} {ss : List Send} {receipt : Receipt}
    (h : w.Writes b ss receipt w') :
    ∃ c, AcceptsFront b receipt.count c ∧ w'.holds = w.holds ++ c :=
  ⟨_, ⟨h.count_le, rfl⟩, h.holds_eq⟩

theorem Writes.conserves_plain {b : Bytes} {ss : List Send} {receipt : Receipt}
    (h : w.Writes b ss receipt w') :
    ∃ c, Accepts (.plainWrite b : Op ν) (.plain (plainCount receipt)) (.writing w') c ∧
      w'.holds = w.holds ++ c := by
  refine ⟨b.take receipt.count, ?_, h.holds_eq⟩
  unfold plainCount
  split
  · exact ⟨h.count_le, rfl⟩
  · rename_i h0
    have h0 := Nat.eq_zero_of_not_pos h0
    split
    · exact ⟨Nat.zero_le _, by rw [h0]⟩
    · rw [h0, List.take_zero]
      rfl

theorem Puts.conserves {b : UInt8} {ss : List Send} (h : w.Puts 1 [b] ss w') :
    ∃ c, Accepts (.writeByte b : Op ν) (.byte (w'.outcome ())) (.writing w') c ∧
      w'.holds = w.holds ++ c := by
  rcases h.holds_eq with ⟨hnone, hholds⟩ | ⟨hsome, hholds⟩
  · rw [outcome, hnone]
    exact ⟨[b], rfl, hholds⟩
  · obtain ⟨e, he⟩ := Option.isSome_iff_exists.mp hsome
    rw [outcome, he]
    exact ⟨[], rfl, by rw [hholds, List.append_nil]⟩

theorem PutsRune.conserves {ch : Char} {ss : List Send} (h : w.PutsRune ch ss w') :
    ∃ c, Accepts (.writeRune ch : Op ν) (.rune (w'.outcome (Rune.encode ch).length))
      (.writing w') c ∧ w'.holds = w.holds ++ c := by
  rcases h.holds_eq with ⟨hnone, hholds⟩ | ⟨hsome, n, hholds, hsize⟩
  · rw [outcome, hnone]
    exact ⟨_, ⟨rfl, rfl⟩, hholds⟩
  · obtain ⟨e, he⟩ := Option.isSome_iff_exists.mp hsome
    rw [outcome, he]
    refine ⟨_, ⟨List.take_prefix _ _, fun hle => ?_⟩, hholds⟩
    rw [hsize (h.size_eq ▸ hle), List.take_zero]

theorem ReadsFrom.conserves {s : ν} {t : Traced ν} {ds : List Draw} {receipt : Receipt}
    (h : w.ReadsFrom (Traced.start s) ds receipt w' t) :
    ∃ c, Accepts (.readFrom s : Op ν) (.drew receipt t) (.writing w') c ∧
      w'.holds = w.holds ++ c := by
  have hdraws : t.draws = ds := draws_of_calls h.calls
  refine ⟨drawn ds, ⟨?_, by rw [hdraws], h.count_eq⟩, h.holds_eq⟩
  rw [hdraws]
  exact Traced.calls_source h.calls

/-- **Every operation conserves.**  It adds the bytes that it accepts, and nothing
else, to those that the writer answers for. -/
theorem Performs.conserves {op : Op ν} {outcome : Outcome ν} {st : Stage κ}
    (h : w.Performs op outcome st) :
    ∃ c, Accepts op outcome st c ∧ st.holds = w.holds ++ c := by
  cases h with
  | write hw => exact hw.conserves
  | writeText hw => exact hw.conserves
  | writeByte hp => exact hp.conserves
  | writeRune hp => exact hp.conserves
  | readFrom hd => exact hd.conserves
  | flush hf => exact ⟨[], rfl, by rw [List.append_nil]; exact hf.holds_eq⟩
  | plainWrite hw => exact hw.conserves_plain
  | plainFlush hf => exact ⟨[], rfl, by rw [List.append_nil]; exact hf.holds_eq⟩
  | adapt ha => exact ⟨[], rfl, by rw [List.append_nil]; exact ha.holds_eq⟩
  | refused hf => exact ⟨[], rfl, by rw [List.append_nil]; exact hf.holds_eq⟩
  | @returned _ w' hf hnone =>
    refine ⟨[], rfl, ?_⟩
    rw [← hf.holds_eq, holds, hf.queued_eq_nil hnone, List.append_nil, List.append_nil]
    rfl

/-! ## Runs -/

/-- What an operation does at a stage: without a writer, nothing. -/
def Proceeds (st : Stage κ) (op : Op ν) (outcome : Outcome ν) (st' : Stage κ) : Prop :=
  match st with
  | .writing w => w.Performs op outcome st'
  | .ended k => outcome = .nothing ∧ st' = .ended k

theorem Proceeds.conserves {st st' : Stage κ} {op : Op ν} {outcome : Outcome ν}
    (h : Proceeds st op outcome st') :
    ∃ c, Accepts op outcome st' c ∧ st'.holds = st.holds ++ c := by
  cases st with
  | writing w => exact Performs.conserves h
  | ended k =>
    obtain ⟨rfl, rfl⟩ := h
    refine ⟨[], ?_, (List.append_nil _).symm⟩
    cases op <;> rfl

/-- An operation proceeds, and leaves a stage in order. -/
theorem perform_proceeds {ν κ : Type} [ByteSource ν] [HonestSource (· = Halt.exhausted) ν]
    [BulkSink κ] [Keeping κ] [HonestSink (· = Halt.exhausted) κ]
    [HonestBulkSink (· = Halt.exhausted) κ] (op : Op ν) (st : Stage κ) (sh : Shared)
    (hst : st.WF) :
    Act.Keeps (perform op st) sh fun (outcome, st') _ =>
      Proceeds st op outcome st' ∧ st'.WF := by
  cases st with
  | ended k => exact ⟨⟨rfl, rfl⟩, trivial⟩
  | writing w =>
    refine (perform_meets (H := (· = Halt.exhausted)) rfl op hst).imp ?_
    rintro ⟨outcome, st'⟩ sh' hp
    exact ⟨hp, hp.wf hst⟩

/-- **A writer conserves what it accepts.**  Over any honest sink that keeps just
what it draws from sources, if it draws them at all, with a buffer of any size and
any pools, every run of operations conserves. -/
theorem run_conserves {ν κ : Type} [ByteSource ν] [HonestSource (· = Halt.exhausted) ν]
    [BulkSink κ] [Keeping κ] [HonestSink (· = Halt.exhausted) κ]
    [HonestBulkSink (· = Halt.exhausted) κ] (k : κ) (size : Nat) (pool : PoolId)
    (ops : List (Op ν)) (sh : Shared) :
    Act.Keeps (do Act.performAll perform ops (.writing (← withCapacity k size pool))) sh
      fun entries _ => entries.map Entry.op = ops ∧ Follows (Conserved (kept k)) [] entries := by
  refine Act.meets_bind.mpr ((withCapacity_meets k size pool).imp ?_)
  rintro w sh₁ ⟨hfresh, -, -⟩
  refine (Act.performAll_meets ops (fun op _ => perform_proceeds op) (s := .writing w) hfresh.wf sh₁).imp ?_
  rintro entries sh' ⟨hchain, hops⟩
  refine ⟨hops, hchain.follows (R := fun st c => st.holds = kept k ++ c) ?_ ?_⟩
  · intro st accepted op outcome st' hst hproceeds
    obtain ⟨c, haccepts, hholds⟩ := hproceeds.conserves
    rw [hst, List.append_assoc] at hholds
    exact ⟨accepted ++ c, ⟨⟨c, haccepts, rfl⟩, hholds⟩, hholds⟩
  · rw [List.append_nil]
    exact hfresh.holds_eq

/-- A sink that takes all it is offered twice, and then fails after three bytes. -/
def faltering : Unbulked Script.TruthfulSink where
  sink :=
    { sink := { items := [.all 2, .take 3 (some (.io 7 (.bare .brokenPipe)))], data := [0x21] } }

/-- The queue is topped up, filled from a source, moved, and passed on until the sink
fails; after that nothing changes. -/
def mixedOps : List (Op Script.Truthful) :=
  [.write [0x61, 0x62, 0x63], .writeRune 'é', .write [0x64, 0x65, 0x66, 0x67, 0x68],
    .readFrom ⟨{ items := [.piece [0x69, 0x6a, 0x6b] (some .eof)] }, by decide⟩, .adapt 9 1,
    .writeText "mnopqrst", .plainWrite [0x75], .flush, .intoSink, .writeByte 0x76]

theorem run_conserves_faltering :
    ∃ entries sh',
      (do Act.performAll perform mixedOps (.writing (← withCapacity faltering 6 0)) : Act _)
        { pools := [], patience := 9 } = .ok entries sh' ∧
      entries.map Entry.op = mixedOps ∧ Follows (Conserved (kept faltering)) [] entries :=
  (run_conserves faltering 6 0 mixedOps _).exists_of_ends (by decide +kernel)

end Writer

end BufferedStream
