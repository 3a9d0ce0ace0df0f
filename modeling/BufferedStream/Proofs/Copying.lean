import BufferedStream.Proofs.Reader.MoveOut
import BufferedStream.Proofs.Twin.Writer
import BufferedStream.Proofs.Writer.Intake

/-!
# Pushing and pulling a copy

What remains in a reader can be copied into a writer from either end: the reader is emptied into
the writer, filling after filling, or the writer draws the reader, which answers out of its buffer
or hands its source the room it is offered.  Over a source of finitely many bytes and a sink that
takes everything both come to the same (`Reader.push_pull_agree`).

* `Writer.takesWithin_unfailed` — a writer over such a sink takes what is written to it.
* `Reader.push_copies`, `Reader.pull_copies` — either way copies what remains.
-/

namespace BufferedStream

open Keeping (kept)

namespace Writer

variable {κ : Type}

/-! ## Patience -/

section Patience

variable [ByteSink κ] [PatientSink κ]

theorem pass_keepsPatience (b : Bytes) (w : Writer κ) : (w.pass b).KeepsPatience := by
  refine (PatientSink.write_patient w.sink b).bind ?_
  rintro ⟨receipt, k⟩
  refine (Act.keepsPatience_require _ _).bind fun _ => ?_
  dsimp only
  split
  · exact Act.keepsPatience_pure _
  · split
    · exact Act.keepsPatience_pure _
    · exact Act.keepsPatience_pure _

theorem flushQueue_keepsPatience (w : Writer κ) : w.flushQueue.KeepsPatience := by
  unfold flushQueue
  split
  · exact Act.keepsPatience_pure _
  · exact (w.pass_keepsPatience w.queued).bind fun _ => Act.keepsPatience_pure _

omit [ByteSink κ] [PatientSink κ] in
theorem copyIn_keepsPatience (b : Bytes) (w : Writer κ) : (w.copyIn b).KeepsPatience := by
  unfold copyIn
  split
  · exact Act.keepsPatience_pure _
  · exact w.acquire_usesPools.keepsPatience.bind fun _ => Act.keepsPatience_pure _

theorem writeRound_keepsPatience (b : Bytes) (w : Writer κ) : (w.writeRound b).KeepsPatience := by
  unfold writeRound
  split
  · exact w.pass_keepsPatience b
  · refine (w.copyIn_keepsPatience b).bind ?_
    rintro ⟨n, w₁⟩
    exact w₁.flushQueue_keepsPatience.bind fun _ => Act.keepsPatience_pure _

/-- By induction on the rounds. -/
theorem writeRounds_keepsPatience (rounds total : Nat) (b : Bytes) (w : Writer κ) :
    (w.writeRounds rounds total b).KeepsPatience := by
  induction rounds generalizing total b w with
  | zero => exact Act.keepsPatience_pure _
  | succ rounds ih =>
    unfold writeRounds
    split
    · refine (w.writeRound_keepsPatience b).bind ?_
      rintro ⟨n, w₁⟩
      exact ih _ _ w₁
    · exact Act.keepsPatience_pure _

/-- A writer over a patient sink is one. -/
instance : PatientSink (Writer κ) where
  write_patient w b := by
    refine (w.writeRounds_keepsPatience 2 0 b).bind ?_
    rintro ⟨total, rest, w₁⟩
    dsimp only
    split
    · exact Act.keepsPatience_pure _
    · exact (w₁.copyIn_keepsPatience rest).bind fun _ => Act.keepsPatience_pure _

end Patience

/-! ## Taking everything -/

variable [BulkSink κ] [Keeping κ] [Accepting κ]

/-- The writer has not failed and answers for the bytes `c`; there is no limit to others. -/
def Unfailed (w : Writer κ) (c : Bytes) (l : Limit) : Prop :=
  w.WF ∧ w.fault = none ∧ w.holds = c ∧ l = none

/-- **A writer that has not failed takes what is written to it**, over a sink that takes
everything. -/
theorem takesWithin_unfailed [PatientSink κ] : TakesWithin (Unfailed (κ := κ)) none := by
  rintro w c l b sh ⟨hw, hnone, rfl, rfl⟩
  refine Act.Meets.patient ?_ (PatientSink.write_patient w b)
  refine (write_meets b w).imp ?_
  rintro ⟨receipt, w'⟩ sh' ⟨ss, hwrites⟩
  obtain ⟨hnone', rfl, hholds⟩ := hwrites.accepted hnone
  exact ⟨rfl, ⟨0, by simp⟩, hwrites.wf hw, hnone', hholds, rfl⟩

end Writer

namespace Reader

variable {σ κ : Type} {r : Reader σ} {w : Writer κ} {sh : Shared}

/-- Empty a reader into a writer and flush. -/
def writeToFlush [BulkSource σ] [ByteSink κ] (r : Reader σ) (w : Writer κ) :
    Act (Receipt × Except Error Unit × Writer κ × Reader σ) := do
  let (receipt, r, w) ← r.writeTo w
  let (result, w) ← w.flush
  return (receipt, result, w, r)

/-- What remained in a reader was copied into a writer, and flushed: it is counted and no error
is reported, the sink has it behind its old content and the bytes that were queued, and nothing
is left in the reader or its source. -/
structure Copied [ByteSource σ] [Layer σ] [Keeping κ] (r : Reader σ) (w : Writer κ)
    (receipt : Receipt) (result : Except Error Unit) (w' : Writer κ) (r' : Reader σ) : Prop where
  receipt_eq : receipt = ⟨r.remaining.length, none⟩
  result_eq : result = .ok ()
  kept_eq : kept w'.sink = kept w.sink ++ w.queued ++ r.remaining
  queued_eq : w'.queued = []
  sound : r'.Sound
  remaining_eq : r'.remaining = []

section Either

variable [BulkSink κ] [Keeping κ]

/-- Flushing ends a copy. -/
theorem copied_flush [ByteSource σ] [Layer σ] [Accepting κ] {w₁ : Writer κ} {r' : Reader σ}
    (hnone : w₁.fault = none) (hholds : w₁.holds = w.holds ++ r.remaining) (hsound : r'.Sound)
    (hremaining : r'.remaining = []) :
    Act.Returns w₁.flush sh fun (result, w') _ =>
      r.Copied w ⟨r.remaining.length, none⟩ result w' r' := by
  refine (Writer.flush_delivers hnone).imp ?_
  rintro ⟨result, w'⟩ sh' ⟨hresult, hkept, hqueued⟩
  exact ⟨rfl, hresult, hkept.trans hholds, hqueued, hsound, hremaining⟩

/-- **Emptying the reader into the writer copies what remains.** -/
theorem push_copies [BulkSource σ] [Layer σ] [Bulkless σ] [Accepting κ] [PatientSink κ]
    (h : r.Sound) (hw : w.WF) (hnone : w.fault = none)
    (hpatience : r.remaining.length < sh.patience) :
    Act.Returns (r.writeToFlush w) sh fun (receipt, result, w', r') _ =>
      r.Copied w receipt result w' r' := by
  have hunfailed : w.Unfailed w.holds none := ⟨hw, hnone, rfl, rfl⟩
  refine Act.meets_bind.mpr
    ((writeTo_moves Writer.takesWithin_unfailed h hunfailed hpatience).imp ?_)
  rintro ⟨receipt, r', w₁⟩ sh₁ ⟨hsound, hmoves⟩
  obtain ⟨-, hnone₁, hholds, -⟩ := hmoves.sink
  obtain rfl := hmoves.receipt_eq
  refine Act.meets_bind.mpr ((copied_flush hnone₁ hholds hsound (hmoves.left_eq_nil rfl)).imp ?_)
  intro x sh₂ hcopied
  exact hcopied

/-- **Drawing the reader into the writer copies what remains.** -/
theorem pull_copies [ByteSource σ] [Layer σ] [Receptive κ] (h : r.Sound) (hw : w.WF)
    (hnone : w.fault = none) (hpatience : r.remaining.length < sh.patience) :
    Act.Returns (w.readFromFlush r) sh fun (receipt, result, w', r') _ =>
      r.Copied w receipt result w' r' := by
  have hleft : Layer.Left r r.remaining (some .eof) := ⟨h, rfl, rfl⟩
  refine Act.meets_bind.mpr
    ((Writer.readFrom_dispensed dispenses_layer hw hnone hleft hpatience).imp ?_)
  rintro ⟨receipt, w₁, r'⟩ sh₁ ⟨rfl, hnone₁, hholds, hsound, hremaining⟩
  refine Act.meets_bind.mpr ((copied_flush hnone₁ hholds hsound hremaining).imp ?_)
  intro x sh₂ hcopied
  exact hcopied

/-- **Pushing and pulling a copy agree.**  Whatever state a reader is in, over a source of
finitely many bytes without a bulk transfer, and a writer that has not failed, over a sink that
takes everything: emptied into the writer, or drawn by it, and flushed, what remains in the
reader is counted and arrives behind all that came before, without an error. -/
theorem push_pull_agree {τ : Type} [BulkSource τ] [FiniteSource τ] [Bulkless τ] [Receptive κ]
    [PatientSink κ] {r : Reader τ} (h : r.Reachable) (hw : w.WF) (hnone : w.fault = none)
    {sh' : Shared} (hpatience : r.remaining.length < sh.patience)
    (hpatience' : r.remaining.length < sh'.patience) :
    Act.Returns (r.writeToFlush w) sh (fun (receipt, result, w', r') _ =>
        r.Copied w receipt result w' r') ∧
      Act.Returns (w.readFromFlush r) sh' (fun (receipt, result, w', r') _ =>
        r.Copied w receipt result w' r') :=
  ⟨push_copies h.sound hw hnone hpatience, pull_copies h.sound hw hnone hpatience'⟩

end Either

/-! ## The end latched before -/

/-- Three letters in two chunks, the last of which comes with the end. -/
def copiedLetters : Piecemeal Script.Steady :=
  ⟨{ items := [.piece [0x61, 0x62] none, .piece [0x63] (some .eof)] }, by decide⟩

/-- A writer over a memory sink, with two bytes queued in a buffer of four. -/
def twoQueued : Writer MemorySink :=
  { sink := ⟨[0x21]⟩, size := 4, pool := 0, queued := [0x31, 0x32], held := some 4096 }

/-- All three letters are looked at before they are copied, and the end is latched behind them. -/
theorem push_pull_agree_lookedAt :
    ∃ r : Reader (Piecemeal Script.Steady), r.Reachable ∧ r.fault = some .eof ∧
      r.remaining = [0x61, 0x62, 0x63] ∧ twoQueued.WF ∧ twoQueued.fault = none ∧
      Act.Returns (r.writeToFlush twoQueued) { pools := [] } (fun (receipt, result, w', r') _ =>
          r.Copied twoQueued receipt result w' r') ∧
        Act.Returns (twoQueued.readFromFlush r) { pools := [] } (fun (receipt, result, w', r') _ =>
          r.Copied twoQueued receipt result w' r') := by
  have hpeek : ∃ r result sh', execute (.op (.peek 3) : Task MemorySink)
      (withCapacity copiedLetters 16 0) { pools := [] } = .ok (result, r) sh' ∧
        r.fault = some .eof ∧ r.remaining = [0x61, 0x62, 0x63] := ⟨_, _, _, rfl, rfl, rfl⟩
  obtain ⟨r, _, _, hrun, hfault, hremaining⟩ := hpeek
  have hr : r.Reachable := .step (.start copiedLetters 16 0) hrun
  have hw : twoQueued.WF := ⟨by decide, by decide, by rintro ⟨⟩⟩
  exact ⟨r, hr, hfault, hremaining, hw, rfl,
    push_pull_agree hr hw rfl (by rw [hremaining]; decide) (by rw [hremaining]; decide)⟩

end Reader

end BufferedStream
