import BufferedStream.Proofs.Sink
import BufferedStream.Writer.Basic

/-!
# How a writer passes bytes on

A writer is told by the bytes that it answers for (`Writer.holds`): those that its
sink has kept, then those still queued.  Taking a block and handing it back do
not touch them, and passing them on only moves the border between the two.

* `Writer.WF` — what is queued fits, and without a block nothing is.
* `Writer.Passes`, `Writer.Flushes`, `Writer.MakesRoom` — one call on the sink,
  the passing on of the queue, and its passing on for want of room.
* `Writer.Flushes.holds_eq` — no byte is lost, doubled or moved, however many the
  sink takes.
-/

namespace BufferedStream

open Keeping (kept)

namespace Writer

variable {κ : Type}

/-! ## Well-formed writers -/

/-- What is queued fits into the buffer; without a block nothing is queued. -/
structure WF (w : Writer κ) : Prop where
  size_pos : 0 < w.size
  fits : w.queued.length ≤ w.size
  queued_of_held : w.held = none → w.queued = []

/-- The bytes that a writer answers for. -/
def holds [Keeping κ] (w : Writer κ) : Bytes := kept w.sink ++ w.queued

/-- A writer over the sink `k` that has done nothing yet. -/
structure Fresh (k : κ) (w : Writer κ) : Prop where
  sink : w.sink = k
  size_pos : 0 < w.size
  queued : w.queued = []
  held : w.held = none
  fault : w.fault = none

variable {H : Halt → Prop} {sh : Shared}

theorem withCapacity_meets (k : κ) (size : Nat) (pool : PoolId) :
    Act.Meets H (withCapacity k size pool) sh fun w _ =>
      Fresh k w ∧ w.pool = pool ∧ (0 < size → w.size = size) := by
  refine Act.meets_bind.mpr (Act.meets_bufferSize.mpr ?_)
  refine ⟨⟨rfl, Nat.le_max_right .., rfl, rfl, rfl⟩, rfl, fun hpos => ?_⟩
  show max (if size = 0 then _ else size) 1 = size
  rw [if_neg (Nat.ne_of_gt hpos)]
  omega

theorem Fresh.wf {k : κ} {w : Writer κ} (h : Fresh k w) : w.WF where
  size_pos := h.size_pos
  fits := by rw [h.queued]; exact Nat.zero_le _
  queued_of_held _ := h.queued

theorem Fresh.holds_eq [Keeping κ] {k : κ} {w : Writer κ} (h : Fresh k w) : w.holds = kept k := by
  rw [holds, h.sink, h.queued, List.append_nil]

/-! ## Taking a block and handing it back -/

/-- The writer with or without a block, and what lies behind the queued bytes. -/
def withBlock (w : Writer κ) (held : Option Nat) (spare : Bytes) : Writer κ :=
  { w with held, spare }

theorem acquire_meets (w : Writer κ) :
    Act.Meets H w.acquire sh fun w' _ => ∃ length spare, w' = w.withBlock (some length) spare := by
  unfold acquire
  split
  · rename_i length h
    exact ⟨length, w.spare, by rw [withBlock, ← h]⟩
  · simp only [Act.meets_bind, Act.meets_acquire, Act.meets_pure]
    exact ⟨_, _, rfl⟩

/-- The block may go back when nothing is queued. -/
inductive Settles (w : Writer κ) : Writer κ → Prop
  | keeps : Settles w w
  | returns (hqueued : w.queued = []) : Settles w (w.withBlock none [])

theorem settle_meets (w : Writer κ) : Act.Meets H w.settle sh fun w' _ => w.Settles w' := by
  unfold settle
  split
  · rename_i hqueued
    split
    · exact .keeps
    · simp only [Act.meets_bind, Act.meets_bufferSize]
      split
      · simp only [Act.meets_bind, Act.meets_release]
        split
        · exact .returns hqueued
        · exact .keeps
      · exact .keeps
  · exact .keeps

/-- Giving the block away has no result; it always returns. -/
theorem surrender_meets {w : Writer κ} {post : Unit → Shared → Prop} (h : ∀ sh', post () sh') :
    Act.Meets H w.surrender sh post := by
  unfold surrender
  split
  · exact Act.meets_bind.mpr (Act.meets_release.mpr (h _))
  · exact h _

namespace Settles

variable {w w' : Writer κ}

theorem sink_eq (h : w.Settles w') : w'.sink = w.sink := by cases h <;> rfl

theorem queued_eq (h : w.Settles w') : w'.queued = w.queued := by cases h <;> rfl

theorem fault_eq (h : w.Settles w') : w'.fault = w.fault := by cases h <;> rfl

theorem wf (h : w.Settles w') (hw : w.WF) : w'.WF := by
  cases h with
  | keeps => exact hw
  | returns hqueued => exact ⟨hw.size_pos, hw.fits, fun _ => hqueued⟩

theorem holds_eq [Keeping κ] (h : w.Settles w') : w'.holds = w.holds := by cases h <;> rfl

end Settles

/-! ## Queueing -/

theorem WF.enqueue {w : Writer κ} (h : w.WF) {b : Bytes} (hle : b.length ≤ w.available)
    (length : Nat) (spare : Bytes) : ((w.withBlock (some length) spare).enqueue b).WF where
  size_pos := h.size_pos
  fits := by
    have := h.fits
    simp only [available, buffered] at hle
    simp only [Writer.enqueue, withBlock, List.length_append]
    omega
  queued_of_held h := by cases h

theorem holds_enqueue [Keeping κ] (w : Writer κ) (b : Bytes) (held : Option Nat) (spare : Bytes) :
    ((w.withBlock held spare).enqueue b).holds = w.holds ++ b :=
  (List.append_assoc ..).symm

/-! ## One call on the sink -/

section Pass

variable [ByteSink κ] [Keeping κ]

/-- Why a call that was answered so is a failure, if it is one. -/
def shortfall (b : Bytes) (receipt : Receipt) : Option Error :=
  receipt.fault.or (if receipt.count < b.length then some .shortWrite else none)

/-- One call on the sink, which was offered `b`; a failure is latched. -/
structure Passes (b : Bytes) (w : Writer κ) (receipt : Receipt) (w' : Writer κ) : Prop where
  writes : ByteSink.Writes w.sink b receipt w'.sink
  count_le : receipt.count ≤ b.length
  kept_eq : kept w'.sink = kept w.sink ++ b.take receipt.count
  writer_eq : w' = { w with sink := w'.sink, fault := (shortfall b receipt).or w.fault }

theorem pass_meets [HonestSink H κ] (b : Bytes) (w : Writer κ) :
    Act.Meets H (w.pass b) sh fun (n, w') _ =>
      ∃ receipt, n = receipt.count ∧ w.Passes b receipt w' := by
  refine Act.meets_bind.mpr ((meets_write w.sink b sh).imp ?_)
  rintro ⟨receipt, k⟩ sh' ⟨hwrites, hle, hkept⟩
  refine Act.meets_bind.mpr ((Act.meets_require (decide_eq_true hle)).mpr ?_)
  dsimp only
  split
  · rename_i e he
    exact ⟨receipt, rfl, hwrites, hle, hkept, by simp [shortfall, he]⟩
  · rename_i hnone
    split
    · rename_i hlt
      exact ⟨receipt, rfl, hwrites, hle, hkept, by simp [shortfall, hnone, hlt]⟩
    · rename_i hge
      exact ⟨receipt, rfl, hwrites, hle, hkept, by simp [shortfall, hnone, hge]⟩

namespace Passes

variable {b : Bytes} {w w' : Writer κ} {receipt : Receipt}

theorem queued_eq (h : w.Passes b receipt w') : w'.queued = w.queued := by
  rw [h.writer_eq]

theorem size_eq (h : w.Passes b receipt w') : w'.size = w.size := by
  rw [h.writer_eq]

theorem held_eq (h : w.Passes b receipt w') : w'.held = w.held := by
  rw [h.writer_eq]

theorem fault_eq (h : w.Passes b receipt w') :
    w'.fault = (shortfall b receipt).or w.fault := by
  rw [h.writer_eq]

/-- A sink that did not fail has taken everything. -/
theorem count_eq (h : w.Passes b receipt w') (hfault : w'.fault = none) :
    receipt.count = b.length := by
  have hnone := h.fault_eq.symm.trans hfault
  rw [Option.or_eq_none_iff, shortfall, Option.or_eq_none_iff] at hnone
  rcases Nat.lt_or_eq_of_le h.count_le with hlt | heq
  · rw [if_pos hlt] at hnone
    cases hnone.1.2
  · exact heq

theorem wf (h : w.Passes b receipt w') (hw : w.WF) : w'.WF where
  size_pos := h.size_eq ▸ hw.size_pos
  fits := by
    rw [h.queued_eq, h.size_eq]
    exact hw.fits
  queued_of_held hheld := h.queued_eq.trans (hw.queued_of_held (h.held_eq.symm.trans hheld))

end Passes

/-! ## Passing the queue on -/

/-- The ways of passing the queue on. -/
inductive Flushes (w : Writer κ) : List Send → Writer κ → Prop
  /-- The sink has failed before, or there is nothing to pass on. -/
  | idle (h : w.fault.isSome = true ∨ w.queued = []) : Flushes w [] w
  | passed {receipt : Receipt} {w₁ : Writer κ} (hfault : w.fault = none) (hne : w.queued ≠ [])
      (hp : w.Passes w.queued receipt w₁) :
      Flushes w [⟨w.queued, receipt⟩] (w₁.dequeue receipt.count)

theorem flushQueue_meets [HonestSink H κ] (w : Writer κ) :
    Act.Meets H w.flushQueue sh fun w' _ => ∃ ss, w.Flushes ss w' := by
  unfold flushQueue
  split
  · rename_i h
    exact ⟨[], .idle (by simpa using h)⟩
  · rename_i h
    simp only [Bool.or_eq_true, decide_eq_true_eq, not_or, Option.not_isSome_iff_eq_none] at h
    refine Act.meets_bind.mpr ((pass_meets w.queued w).imp ?_)
    rintro ⟨n, w₁⟩ sh₁ ⟨receipt, rfl, hp⟩
    exact ⟨_, .passed h.1 h.2 hp⟩

namespace Flushes

variable {w w' : Writer κ} {ss : List Send}

theorem sends (h : w.Flushes ss w') : Sends w.sink ss w'.sink := by
  cases h with
  | idle => exact .nil _
  | passed _ _ hp => exact .cons hp.writes (.nil _)

theorem size_eq (h : w.Flushes ss w') : w'.size = w.size := by
  cases h with
  | idle => rfl
  | passed _ _ hp => exact hp.size_eq

/-- **Passing on keeps every byte.**  What the sink took, it took from the front
of the queue; the rest stays queued. -/
theorem holds_eq (h : w.Flushes ss w') : w'.holds = w.holds := by
  cases h with
  | idle => rfl
  | @passed receipt w₁ _ _ hp =>
    show kept w₁.sink ++ w₁.queued.drop receipt.count = kept w.sink ++ w.queued
    rw [hp.kept_eq, hp.queued_eq, List.append_assoc, List.take_append_drop]

theorem wf (h : w.Flushes ss w') (hw : w.WF) : w'.WF := by
  cases h with
  | idle => exact hw
  | @passed receipt w₁ _ _ hp =>
    have hw₁ := hp.wf hw
    refine ⟨hw₁.size_pos, ?_, fun hheld => ?_⟩
    · exact Nat.le_trans (List.drop_sublist ..).length_le hw₁.fits
    · show w₁.queued.drop receipt.count = []
      rw [hw₁.queued_of_held hheld, List.drop_nil]

/-- Unless the sink failed, the whole queue was passed on. -/
theorem queued_eq_nil (h : w.Flushes ss w') (hfault : w'.fault = none) : w'.queued = [] := by
  cases h with
  | idle h => exact h.resolve_left (by simp [hfault])
  | @passed receipt w₁ _ _ hp =>
    show w₁.queued.drop receipt.count = []
    rw [hp.queued_eq, hp.count_eq hfault, List.drop_length]

end Flushes

/-- Passing the queue on if there is no room for `n` bytes. -/
inductive MakesRoom (n : Nat) (w : Writer κ) : List Send → Writer κ → Prop
  | enough (h : n ≤ w.available) : MakesRoom n w [] w
  | flushed {ss : List Send} {w' : Writer κ} (h : w.available < n) (hf : w.Flushes ss w') :
      MakesRoom n w ss w'

theorem makeRoom_meets [HonestSink H κ] (n : Nat) (w : Writer κ) :
    Act.Meets H (w.makeRoom n) sh fun w' _ => ∃ ss, w.MakesRoom n ss w' := by
  unfold makeRoom
  split
  · rename_i h
    refine (flushQueue_meets w).imp ?_
    rintro w' sh' ⟨ss, hf⟩
    exact ⟨ss, .flushed h hf⟩
  · rename_i h
    exact ⟨[], .enough (Nat.le_of_not_lt h)⟩

namespace MakesRoom

variable {n : Nat} {w w' : Writer κ} {ss : List Send}

theorem sends (h : w.MakesRoom n ss w') : Sends w.sink ss w'.sink := by
  cases h with
  | enough => exact .nil _
  | flushed _ hf => exact hf.sends

theorem size_eq (h : w.MakesRoom n ss w') : w'.size = w.size := by
  cases h with
  | enough => rfl
  | flushed _ hf => exact hf.size_eq

theorem holds_eq (h : w.MakesRoom n ss w') : w'.holds = w.holds := by
  cases h with
  | enough => rfl
  | flushed _ hf => exact hf.holds_eq

theorem wf (h : w.MakesRoom n ss w') (hw : w.WF) : w'.WF := by
  cases h with
  | enough => exact hw
  | flushed _ hf => exact hf.wf hw

/-- Unless the sink failed, there is room enough or the buffer is empty. -/
theorem room (h : w.MakesRoom n ss w') (hfault : w'.fault = none) :
    n ≤ w'.available ∨ w'.available = w'.size := by
  cases h with
  | enough h => exact .inl h
  | flushed _ hf =>
    right
    rw [available, buffered, hf.queued_eq_nil hfault, List.length_nil, Nat.sub_zero]

/-- Once room was made for a byte, there is room. -/
theorem available_pos (h : w.MakesRoom 1 ss w') (hw : w.WF) (hfault : w'.fault = none) :
    0 < w'.available := by
  rcases h.room hfault with hroom | hall
  · exact hroom
  · rw [hall]
    exact (h.wf hw).size_pos

end MakesRoom

end Pass

end Writer

end BufferedStream
