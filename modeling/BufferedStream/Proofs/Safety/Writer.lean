import BufferedStream.Proofs.Rune
import BufferedStream.Proofs.Safety.Bounds
import BufferedStream.Proofs.Safety.CheckedWriter
import BufferedStream.Proofs.Safety.Endpoint

/-!
# A writer stays within bounds

What a writer has queued ends within its buffer, and the buffer within the block;
without a block nothing is queued (`Writer.InBounds`).  From that every access is in
range, and every operation leaves the writer in bounds, whatever an answering sink
reports, and whatever an answering source that is drawn.

* `Writer.flushQueue_safe`, `Writer.write_safe`, `Writer.writeRune_safe`, `Writer.readFrom_safe`
  and the like — one for each operation.
* `Writer.perform_safe` — every operation is safe.
* A writer over an answering sink is an answering sink itself, which takes no more than
  it was offered.
-/

namespace BufferedStream

open Act (Upholds)
open Guarded (Safe safe_check safe_of safe_pure safe_answer)

/-- A record of what was asked and handed out changes nothing. -/
instance {σ : Type} [ByteSource σ] [AnsweringSource σ] : AnsweringSource (Traced σ) where
  Sound t := AnsweringSource.Sound t.source
  read_answers room ht := by
    refine (AnsweringSource.read_answers room ht).bind_answers ?_ ?_
    · rintro ⟨g, s⟩ hle hs
      exact (Act.upholds_pure ⟨hle, hs⟩).answers
    · rintro ⟨g, s⟩ hover hs
      exact ⟨_, rfl, hs, hover, fun b hb => hb⟩

namespace Writer

variable {ν σ κ : Type} {w w' : Writer κ}

/-! ## Writers in bounds -/

/-- The queued bytes end within the buffer, and the buffer within the block; without
a block nothing is queued. -/
def InBounds (w : Writer κ) : Prop := Bounds 1 w.buffered w.size w.held

theorem Fresh.inBounds {k : κ} (h : Fresh k w) : w.InBounds where
  least_le := h.size_pos
  filled_le := by rw [buffered, h.queued]; exact Nat.zero_le _
  size_le length hheld := by rw [h.held] at hheld; cases hheld
  filled_eq_zero _ := by rw [buffered, h.queued]; rfl

theorem withCapacity_upholds (k : κ) (size : Nat) (pool : PoolId) :
    (withCapacity k size pool).Upholds fun w => Fresh k w ∧ (0 < size → w.size = size) := by
  refine (Act.upholds_bufferSize pool).bind fun canonical _ => Act.upholds_pure ?_
  refine ⟨⟨rfl, Nat.le_max_right .., rfl, rfl, rfl⟩, fun hpos => ?_⟩
  dsimp only
  rw [if_neg (Nat.ne_of_gt hpos)]
  omega

/-! ## The block -/

theorem acquire_upholds (h : w.InBounds) : w.acquire.Upholds fun w' =>
    w'.InBounds ∧ Holds w'.size w'.held ∧ ∃ length spare, w' = w.withBlock (some length) spare := by
  unfold acquire
  split
  · rename_i length hheld
    refine Act.upholds_pure ⟨h, h.holds ?_, length, w.spare, by rw [withBlock, ← hheld]⟩
    rw [hheld]
    exact Option.some_ne_none length
  · refine (Act.upholds_acquire w.pool w.size).bind fun b hle => Act.upholds_pure ?_
    have hholds : Holds w.size (some b.length) := ⟨b.length, rfl, hle⟩
    exact ⟨hholds.bounds h.least_le h.filled_le, hholds, b.length, b.front, rfl⟩

theorem settle_upholds (w : Writer κ) : w.settle.Upholds w.Settles := by
  unfold settle
  refine .ite (fun hqueued => ?_) fun _ => Act.upholds_pure .keeps
  split
  · exact Act.upholds_pure .keeps
  · refine (Act.upholds_bufferSize _).bind fun length _ => ?_
    refine .ite (fun _ => ?_) fun _ => Act.upholds_pure .keeps
    refine (Act.upholds_release _ _).bind fun rejected _ => ?_
    cases rejected with
    | none => exact Act.upholds_pure (.returns hqueued)
    | some b => exact Act.upholds_pure .keeps

theorem InBounds.settles (h : w.InBounds) (hs : w.Settles w') : w'.InBounds := by
  cases hs with
  | keeps => exact h
  | returns hqueued =>
    have hzero : (w.withBlock none []).buffered = 0 := by rw [withBlock, buffered, hqueued]; rfl
    exact ⟨h.least_le, h.filled_le, fun _ h => (by cases h), fun _ => hzero⟩

theorem surrender_upholds (w : Writer κ) : w.surrender.Upholds fun _ => True := by
  unfold surrender
  split
  · exact (Act.upholds_release _ _).bind fun _ _ => Act.upholds_pure trivial
  · exact Act.upholds_pure trivial

/-! ## Secure writers -/

variable [ByteSink κ] [AnsweringSink κ]

/-- The writer is in bounds, and its sink in a state in which it may be. -/
structure Secure (w : Writer κ) : Prop where
  inBounds : w.InBounds
  sink : AnsweringSink.Sound w.sink

namespace Secure

theorem settles (h : w.Secure) (hs : w.Settles w') : w'.Secure :=
  ⟨h.inBounds.settles hs, by rw [hs.sink_eq]; exact h.sink⟩

/-- What fits into the room left may be queued in a block. -/
theorem enqueue (h : w.Secure) (hholds : Holds w.size w.held) {b : Bytes}
    (hb : b.length ≤ w.available) : (w.enqueue b).Secure := by
  refine ⟨hholds.bounds h.inBounds.least_le ?_, h.sink⟩
  have hle := h.inBounds.filled_le
  rw [available] at hb
  show (w.queued ++ b).length ≤ w.size
  rw [List.length_append]
  rw [buffered] at hb hle
  omega

theorem dequeue (h : w.Secure) (n : Nat) : (w.dequeue n).Secure := by
  have hle : (w.dequeue n).buffered ≤ w.buffered :=
    Nat.le_trans (Nat.le_of_eq List.length_drop) (Nat.sub_le _ _)
  obtain ⟨⟨hleast, hfilled, hsize, hzero⟩, hsink⟩ := h
  exact ⟨⟨hleast, Nat.le_trans hle hfilled, hsize, fun hnone =>
    Nat.le_zero.mp (Nat.le_trans hle (Nat.le_of_eq (hzero hnone)))⟩, hsink⟩

end Secure

theorem acquire_safe (h : w.Secure) : Safe (.of w.acquire) w.acquire fun w' =>
    w'.Secure ∧ Holds w'.size w'.held ∧ w'.available = w.available := by
  refine safe_of ((acquire_upholds h.inBounds).imp ?_)
  rintro w' ⟨hin, hholds, length, spare, rfl⟩
  exact ⟨⟨hin, h.sink⟩, hholds, rfl⟩

/-! ## Passing bytes on -/

/-- A sink that reports more than it was offered is turned down at once; one that takes
less without a failure leaves one behind. -/
theorem pass_upholds (b : Bytes) (h : w.Secure) :
    (w.pass b).Upholds fun (n, w') => n ≤ b.length ∧ (w'.fault = none → n = b.length) ∧ w'.Secure ∧
      w'.queued = w.queued ∧ w'.size = w.size := by
  refine (AnsweringSink.write_answers b h.sink).bind ?_ ?_
  · rintro ⟨receipt, k⟩ hle hk
    refine (Act.upholds_require hle _).bind fun _ _ => ?_
    have hw : ∀ fault, Secure { w with sink := k, fault } := fun _ => ⟨h.inBounds, hk⟩
    dsimp only at hle ⊢
    split
    · exact Act.upholds_pure ⟨hle, fun hnone => (by cases hnone), hw _, rfl, rfl⟩
    · refine .ite (fun _ => ?_) fun hge => ?_
      · exact Act.upholds_pure ⟨hle, fun hnone => (by cases hnone), hw _, rfl, rfl⟩
      · exact Act.upholds_pure ⟨hle, fun _ => Nat.le_antisymm hle (Nat.le_of_not_lt hge), hw _, rfl,
          rfl⟩
  · exact fun _ hover => ⟨_, .inl rfl, Act.require_bind_of_not hover _ _⟩

/-- Without a failure nothing stays queued. -/
theorem flushQueue_safe (h : w.Secure) :
    Safe (Checked.flushQueue w) w.flushQueue fun w' =>
      w'.Secure ∧ w'.size = w.size ∧ (w'.fault = none → w'.queued = []) := by
  unfold Checked.flushQueue flushQueue
  refine .ite (fun hidle => safe_pure ⟨h, rfl, fun hnone => ?_⟩) fun _ => ?_
  · rw [hnone] at hidle
    simpa using hidle
  · refine safe_check h.inBounds.filled_le_extent ?_
    refine (safe_of (pass_upholds w.queued h)).bind ?_
    rintro ⟨taken, w₁⟩ ⟨hle, hall, h₁, hqueued, hsize⟩
    have hle' : taken ≤ w₁.buffered := by rwa [buffered, hqueued]
    refine safe_check hle' (safe_pure ⟨h₁.dequeue taken, hsize, fun hnone => ?_⟩)
    have hlength : w₁.queued.length = taken := by rw [hqueued, hall hnone]
    exact List.drop_eq_nil_of_le (Nat.le_of_eq hlength)

theorem makeRoom_safe (n : Nat) (h : w.Secure) :
    Safe (Checked.makeRoom n w) (w.makeRoom n) fun w' =>
      w'.Secure ∧ w'.size = w.size ∧ (w'.fault = none → n ≤ w'.available ∨ w'.queued = []) := by
  unfold Checked.makeRoom makeRoom
  refine safe_check h.inBounds.filled_le ?_
  refine .ite (fun _ => ?_) fun hge => safe_pure ⟨h, rfl, fun _ => .inl (Nat.le_of_not_lt hge)⟩
  refine (flushQueue_safe h).imp ?_
  rintro w' ⟨h', hsize, hnil⟩
  exact ⟨h', hsize, fun hnone => .inr (hnil hnone)⟩

/-- A writer that made room for a byte has room. -/
theorem Secure.available_pos (h : w.Secure) (hroom : 1 ≤ w.available ∨ w.queued = []) :
    0 < w.available := by
  rcases hroom with hroom | hnil
  · exact hroom
  · have hsize := h.inBounds.least_le
    rw [available, buffered, hnil]
    exact hsize

theorem flush_safe (h : w.Secure) : Safe (Checked.flush w) w.flush fun (_, w') => w'.Secure := by
  refine (flushQueue_safe h).bind ?_
  rintro w₁ ⟨h₁, -, -⟩
  exact (safe_of (settle_upholds w₁)).bind fun w' hs => safe_pure (h₁.settles hs)

/-! ## Changing hands -/

/-- The larger buffer has room for the bytes of the smaller one. -/
theorem regrow_safe {size : Nat} (pool : PoolId) (hsize : w.size < size) (h : w.Secure) :
    Safe (Checked.regrow size pool w) (w.regrow size pool) fun w' => w'.Secure := by
  have hsurrender := safe_of (surrender_upholds w)
  refine (safe_of (withCapacity_upholds w.sink size pool)).bind ?_
  rintro w₁ ⟨hfresh, hsize₁⟩
  have hgrown : Secure { w₁ with fault := w.fault } :=
    ⟨hfresh.inBounds, by show AnsweringSink.Sound w₁.sink; rw [hfresh.sink]; exact h.sink⟩
  dsimp only
  split
  · refine (acquire_safe hgrown).bind ?_
    rintro w₂ ⟨h₂, hholds, hroom⟩
    have hfits : w.buffered ≤ w₂.available := by
      rw [hroom, available, buffered, buffered, hfresh.queued, hsize₁ (by omega)]
      exact Nat.le_trans h.inBounds.filled_le (Nat.le_of_lt hsize)
    refine safe_check ⟨h₂.inBounds.filled_le, hholds.size_le_extent⟩ (safe_check hfits ?_)
    refine safe_check h.inBounds.filled_le_extent ?_
    refine (safe_pure (h₂.enqueue hholds hfits)).bind fun w₃ h₃ => ?_
    exact hsurrender.bind fun _ _ => safe_pure h₃
  · exact hsurrender.bind fun _ _ => safe_pure hgrown

theorem adapt_safe (size : Nat) (pool : PoolId) (h : w.Secure) :
    Safe (Checked.adapt size pool w) (w.adapt size pool) fun w' => w'.Secure := by
  unfold Checked.adapt adapt
  exact .ite (fun _ => safe_pure h) fun hlt => regrow_safe pool (Nat.lt_of_not_le hlt) h

theorem intoSink_safe (h : w.Secure) :
    Safe (Checked.intoSink w) w.intoSink fun
      | .error (_, w') => w'.Secure
      | .ok k => AnsweringSink.Sound k := by
  refine (flush_safe h).bind ?_
  rintro ⟨result, w₁⟩ h₁
  cases result with
  | error e => exact safe_pure h₁
  | ok u => exact (safe_of (surrender_upholds w₁)).bind fun _ _ => safe_pure h₁.sink

/-! ## Writing -/

theorem copyIn_safe (b : Bytes) (h : w.Secure) :
    Safe (Checked.copyIn b w) (w.copyIn b) fun (n, w') => n ≤ b.length ∧ w'.Secure := by
  unfold Checked.copyIn copyIn
  refine .ite (fun _ => safe_pure ⟨Nat.zero_le _, h⟩) fun _ => ?_
  refine (acquire_safe h).bind ?_
  rintro w₁ ⟨h₁, hholds, -⟩
  have htaken : (b.take w₁.available).length ≤ w₁.available := List.length_take_le _ _
  have hle : (b.take w₁.available).length ≤ b.length := List.length_take_le' _ _
  refine safe_check ⟨h₁.inBounds.filled_le, hholds.size_le_extent⟩ (safe_check ⟨htaken, hle⟩ ?_)
  exact safe_pure ⟨hle, h₁.enqueue hholds htaken⟩

theorem writeRound_safe (b : Bytes) (h : w.Secure) :
    Safe (Checked.writeRound b w) (w.writeRound b) fun (n, w') => n ≤ b.length ∧ w'.Secure := by
  unfold Checked.writeRound writeRound
  refine .ite (fun _ => ?_) fun _ => ?_
  · exact safe_of ((pass_upholds b h).imp fun _ h' => ⟨h'.1, h'.2.2.1⟩)
  · refine (copyIn_safe b h).bind ?_
    rintro ⟨n, w₁⟩ ⟨hle, h₁⟩
    exact (flushQueue_safe h₁).bind fun w₂ h₂ => safe_pure ⟨hle, h₂.1⟩

/-- By induction on the rounds: what was taken and what is left make up the bytes offered. -/
theorem writeRounds_safe (rounds total : Nat) (b : Bytes) (h : w.Secure) :
    Safe (Checked.writeRounds rounds total b w) (w.writeRounds rounds total b)
      fun (total', b', w') => total' + b'.length = total + b.length ∧ w'.Secure := by
  induction rounds generalizing total b w with
  | zero => exact safe_pure ⟨rfl, h⟩
  | succ rounds ih =>
    rw [Checked.writeRounds, writeRounds]
    refine safe_check h.inBounds.filled_le ?_
    refine .ite (fun _ => ?_) fun _ => safe_pure ⟨rfl, h⟩
    refine (writeRound_safe b h).bind ?_
    rintro ⟨n, w₁⟩ ⟨hle, h₁⟩
    refine safe_check hle ((ih (total + n) (b.drop n) h₁).imp ?_)
    rintro ⟨total', b', w'⟩ ⟨heq, h'⟩
    refine ⟨?_, h'⟩
    rw [List.length_drop] at heq
    omega

/-- **A write is safe**, and never reports more bytes than it was offered. -/
theorem write_safe (b : Bytes) (h : w.Secure) :
    Safe (Checked.write b w) (w.write b) fun (receipt, w') =>
      receipt.count ≤ b.length ∧ w'.Secure := by
  refine (writeRounds_safe 2 0 b h).bind ?_
  rintro ⟨total, b₁, w₁⟩ ⟨heq, h₁⟩
  dsimp only at heq ⊢
  cases w₁.fault with
  | some e => exact safe_pure ⟨by dsimp only; omega, h₁⟩
  | none =>
    refine (copyIn_safe b₁ h₁).bind ?_
    rintro ⟨n, w₂⟩ ⟨hle, h₂⟩
    exact safe_pure ⟨by dsimp only at hle ⊢; omega, h₂⟩

theorem writeByte_safe (b : UInt8) (h : w.Secure) :
    Safe (Checked.writeByte b w) (w.writeByte b) fun (_, w') => w'.Secure := by
  refine (makeRoom_safe 1 h).bind ?_
  rintro w₁ ⟨h₁, -, hroom⟩
  cases hfault : w₁.fault with
  | some e => exact safe_pure h₁
  | none =>
    have hpos := h₁.available_pos (hroom hfault)
    refine (acquire_safe h₁).bind ?_
    rintro w₂ ⟨h₂, hholds, hroom₂⟩
    rw [← hroom₂] at hpos
    refine safe_check ⟨h₂.inBounds.filled_le, hholds.size_le_extent⟩ (safe_check hpos ?_)
    exact safe_pure (h₂.enqueue hholds hpos)

/-- A buffer with room for any character has room for this one. -/
theorem writeRune_safe (c : Char) (h : w.Secure) :
    Safe (Checked.writeRune c w) (w.writeRune c) fun (_, w') => w'.Secure := by
  unfold Checked.writeRune writeRune
  refine .ite (fun _ => ?_) fun _ => ?_
  · exact (writeByte_safe _ h).bind fun _ h' => safe_pure h'
  refine (makeRoom_safe Rune.maxWidth h).bind ?_
  rintro w₁ ⟨h₁, -, -⟩
  cases w₁.fault with
  | some e => exact safe_pure h₁
  | none =>
    refine safe_check h₁.inBounds.filled_le (.ite (fun _ => ?_) fun hroom => ?_)
    · refine (write_safe _ h₁).bind ?_
      rintro ⟨receipt, w₂⟩ ⟨-, h₂⟩
      dsimp only
      cases receipt.fault with
      | some e => exact safe_of (Act.upholds_pure h₂)
      | none => exact safe_of (Act.upholds_pure h₂)
    · refine (acquire_safe h₁).bind ?_
      rintro w₂ ⟨h₂, hholds, hroom₂⟩
      have hfits : (Rune.encode c).length ≤ w₂.available := by
        rw [hroom₂]
        exact Nat.le_trans (Rune.length_encode_le c) (Nat.le_of_not_lt hroom)
      refine safe_check ⟨h₂.inBounds.filled_le, hholds.size_le_extent⟩ (safe_check hfits ?_)
      exact safe_pure (h₂.enqueue hholds hfits)

theorem plainWrite_safe (b : Bytes) (h : w.Secure) :
    Safe (Checked.plainWrite b w) (w.plainWrite b) fun (result, w') =>
      (∀ n, result = .ok n → n ≤ b.length) ∧ w'.Secure := by
  refine (write_safe b h).bind ?_
  rintro ⟨receipt, w'⟩ ⟨hle, h'⟩
  refine safe_of (.ite (fun _ => Act.upholds_pure ⟨?_, h'⟩) fun _ => ?_)
  · intro n hn
    cases hn
    exact hle
  · dsimp only
    cases receipt.fault with
    | none =>
      refine Act.upholds_pure ⟨fun n hn => ?_, h'⟩
      cases hn
      exact Nat.zero_le _
    | some e => exact Act.upholds_pure ⟨fun n hn => (by cases hn), h'⟩

theorem plainFlush_safe (h : w.Secure) :
    Safe (Checked.plainFlush w) w.plainFlush fun (_, w') => w'.Secure :=
  (flush_safe h).bind fun _ h' => safe_pure h'

/-! ## Drawing a source -/

section Draw

variable [ByteSource σ] [AnsweringSource σ] {s : σ}

/-- A source that reports more than there is room for is turned down at once. -/
theorem draw_safe (h : w.Secure) (hs : AnsweringSource.Sound s) :
    Safe (Checked.draw w s) (w.draw s) fun (_, w', s') => w'.Secure ∧ AnsweringSource.Sound s' := by
  refine (acquire_safe h).bind ?_
  rintro w₁ ⟨h₁, hholds, -⟩
  refine safe_check ⟨h₁.inBounds.filled_le, hholds.size_le_extent⟩ ?_
  refine safe_answer (AnsweringSource.read_answers ⟨w₁.available, w₁.spare⟩ hs) ?_ ?_
  · rintro ⟨g, s⟩ hle hs
    refine (safe_of (Act.upholds_require hle _)).bind fun _ _ => safe_pure ⟨?_, hs⟩
    refine ⟨hholds.bounds h₁.inBounds.least_le ?_, h₁.sink⟩
    have hin := h₁.inBounds.filled_le
    dsimp only [available] at hle
    rw [buffered] at hle hin ⊢
    dsimp only
    rw [List.length_append, Grant.bytesIn, Bytes.length_zeroPadded]
    omega
  · exact fun _ hover => ⟨_, .inl rfl, Guarded.require_bind_of_not hover _ _,
      Act.require_bind_of_not hover _ _⟩

omit [ByteSource σ] [AnsweringSource σ] in
theorem concludeTransfer_safe (total : Nat) (fault : Option Error) (h : w.Secure) :
    Safe (Checked.concludeTransfer total fault w) (w.concludeTransfer total fault)
      fun (_, w') => w'.Secure := by
  unfold Checked.concludeTransfer concludeTransfer
  by_cases heof : fault = some .eof
  · rw [heof]
    exact (makeRoom_safe 1 h).bind fun w' h' => safe_pure h'.1
  · simp only
    exact safe_pure h

/-- By induction on the rounds. -/
theorem drawRounds_safe (rounds total : Nat) (h : w.Secure) (hs : AnsweringSource.Sound s) :
    Safe (Checked.drawRounds rounds total w s) (w.drawRounds rounds total s) fun (_, w', s') =>
      w'.Secure ∧ AnsweringSource.Sound s' := by
  induction rounds generalizing total w s with
  | zero => exact safe_of Act.upholds_exhausted
  | succ rounds ih =>
    rw [Checked.drawRounds, drawRounds]
    refine (makeRoom_safe 1 h).bind ?_
    rintro w₁ ⟨h₁, -, -⟩
    refine .ite (fun _ => safe_pure ⟨h₁, hs⟩) fun _ => ?_
    refine (draw_safe h₁ hs).bind ?_
    rintro ⟨g, w₂, s₂⟩ ⟨h₂, hs₂⟩
    refine .ite (fun _ => ?_) fun _ => ih _ h₂ hs₂
    exact (concludeTransfer_safe _ _ h₂).bind fun _ h' => safe_pure ⟨h', hs₂⟩

end Draw

/-- **Drawing a source is safe.** -/
theorem readFrom_safe {κ : Type} [BulkSink κ] [AnsweringSink κ] [ByteSource σ]
    [AnsweringSource σ] [AnsweringIntake κ σ] {w : Writer κ} {s : σ} (h : w.Secure)
    (hs : AnsweringSource.Sound s) :
    Safe (Checked.readFrom w s) (w.readFrom s) fun (_, w', s') =>
      w'.Secure ∧ AnsweringSource.Sound s' := by
  have hrounds : ∀ {w : Writer κ} {s : σ}, w.Secure → AnsweringSource.Sound s →
      Safe (do Checked.drawRounds (← .of Act.patience) 0 w s)
        (do w.drawRounds (← Act.patience) 0 s) fun (_, w', s') =>
          w'.Secure ∧ AnsweringSource.Sound s' := fun h hs =>
    (safe_of Act.upholds_patience).bind fun rounds _ => drawRounds_safe rounds 0 h hs
  unfold Checked.readFrom readFrom
  refine .ite (fun _ => safe_pure ⟨h, hs⟩) fun _ => ?_
  refine .ite (fun _ => ?_) fun _ => hrounds h hs
  refine (safe_of (AnsweringIntake.readFrom_upholds h.sink hs)).bind ?_
  rintro ⟨bulk, k, s₁⟩ ⟨hk, hs₁⟩
  have h₁ : Secure { w with sink := k } := ⟨h.inBounds, hk⟩
  cases bulk with
  | some receipt => exact safe_pure ⟨h₁, hs₁⟩
  | none => exact hrounds h₁ hs₁

/-! ## A writer as a sink -/

instance : AnsweringSink (Writer κ) where
  Sound := Secure
  write_answers b h := (write_safe b h).upholds.answers

instance {κ : Type} [BulkSink κ] [AnsweringSink κ] [ByteSource σ] [AnsweringSource σ]
    [AnsweringIntake κ σ] : AnsweringIntake (Writer κ) σ where
  readFrom_upholds h hs :=
    (readFrom_safe h hs).upholds.bind fun (_, _, _) h' => Act.upholds_pure h'

/-! ## Operations -/

/-- What an operation asks of the source that it draws. -/
def Op.Secure [ByteSource ν] [AnsweringSource ν] : Op ν → Prop
  | .readFrom s => AnsweringSource.Sound s
  | _ => True

/-- The writer of a stage is secure, or else the sink that it was given up for is in a
state in which it may be. -/
def Stage.Secure : Stage κ → Prop
  | .writing w => w.Secure
  | .ended k => AnsweringSink.Sound k

/-- **Every operation is safe.** -/
theorem perform_safe {κ : Type} [ByteSource ν] [AnsweringSource ν] [BulkSink κ] [AnsweringSink κ]
    [AnsweringIntake κ (Traced ν)] {op : Op ν} (hop : op.Secure) {st : Stage κ} (h : st.Secure) :
    Safe (Checked.perform op st) (perform op st) fun (_, st') => st'.Secure := by
  cases st with
  | ended k => cases op <;> exact safe_pure h
  | writing w =>
    cases op with
    | write b => exact (write_safe b h).bind fun _ h' => safe_pure h'.2
    | writeText s => exact (write_safe _ h).bind fun _ h' => safe_pure h'.2
    | writeByte b => exact (writeByte_safe b h).bind fun _ h' => safe_pure h'
    | writeRune c => exact (writeRune_safe c h).bind fun _ h' => safe_pure h'
    | readFrom s =>
      have hs : AnsweringSource.Sound (Traced.start s) := hop
      exact (readFrom_safe h hs).bind fun _ h' => safe_pure h'.1
    | flush => exact (flush_safe h).bind fun _ h' => safe_pure h'
    | plainWrite b => exact (plainWrite_safe b h).bind fun _ h' => safe_pure h'.2
    | plainFlush => exact (plainFlush_safe h).bind fun _ h' => safe_pure h'
    | adapt size pool => exact (adapt_safe size pool h).bind fun _ h' => safe_pure h'
    | intoSink =>
      refine (intoSink_safe h).bind ?_
      rintro (⟨e, w'⟩ | k) h'
      · exact safe_pure h'
      · exact safe_pure h'

end Writer

end BufferedStream
