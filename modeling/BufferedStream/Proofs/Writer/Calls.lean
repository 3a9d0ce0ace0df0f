import BufferedStream.Proofs.Watched
import BufferedStream.Proofs.Writer.Write

/-!
# What one write asks of the sink

A write passes bytes on in rounds until the rest fits.  A round that copies nothing, because the
buffer is full already, still empties the buffer; a round that finds the buffer empty takes all
that is left.  So the second round is the last one.

* `Writer.writeRounds_eq` — a loop of more rounds does the same, and ends with bytes that fit or
  a sink that failed (`Writer.Rested`).
* `Writer.Asks`, `Writer.Writes.asks` — the calls that a write may make: at most one for the
  topped-up buffer, and after it at most one for the rest.
* `Writer.write_asks_at_most_twice` — what a write answers and what it asks of the sink.
-/

namespace BufferedStream

open Keeping (kept)

namespace Writer

variable {κ : Type} {H : Halt → Prop}

/-! ## The calls of a write -/

/-- Nothing more is to be passed on: the bytes fit, or the sink has failed. -/
def Rested (b : Bytes) (w : Writer κ) : Prop :=
  b.length ≤ w.available ∨ w.fault.isSome = true

/-- The calls that writing `b` may make on the sink. -/
inductive Asks (b : Bytes) (w : Writer κ) : List Send → Prop
  /-- The bytes fit, or the sink has failed before. -/
  | nothing (h : w.Rested b) : Asks b w []
  /-- Bytes that find the buffer empty are offered at once. -/
  | direct {receipt : Receipt} (hqueued : w.queued = []) (hlong : w.size < b.length) :
      Asks b w [⟨b, receipt⟩]
  /-- The buffer is topped up and passed on full; the rest fits, or the sink failed. -/
  | flush {receipt : Receipt} (hlong : w.available < b.length)
      (hfull : (w.queued ++ b.take w.available).length = w.size)
      (hrest : (b.drop w.available).length ≤ w.size ∨
        (shortfall (w.queued ++ b.take w.available) receipt).isSome = true) :
      Asks b w [⟨w.queued ++ b.take w.available, receipt⟩]
  /-- The rest does not fit into the emptied buffer either. -/
  | flushThenDirect {receipt receipt' : Receipt}
      (hfull : (w.queued ++ b.take w.available).length = w.size)
      (hpassed : shortfall (w.queued ++ b.take w.available) receipt = none)
      (hlong : w.size < (b.drop w.available).length) :
      Asks b w [⟨w.queued ++ b.take w.available, receipt⟩, ⟨b.drop w.available, receipt'⟩]

namespace Asks

variable {b : Bytes} {w : Writer κ} {ss : List Send}

theorem length_le (h : w.Asks b ss) : ss.length ≤ 2 := by
  cases h <;> simp

/-- Bytes that fit are not passed on. -/
theorem eq_nil (h : w.Asks b ss) (hfits : b.length ≤ w.available) : ss = [] := by
  have havailable : w.available ≤ w.size := Nat.sub_le ..
  cases h with
  | nothing => rfl
  | direct => omega
  | flush => omega
  | flushThenDirect =>
    rename_i hlong
    rw [List.length_drop] at hlong
    omega

end Asks

/-! ## The last round -/

variable [ByteSink κ]

theorem Rested.writeRounds_eq {b : Bytes} {w : Writer κ} (h : w.Rested b) (rounds total : Nat) :
    w.writeRounds rounds total b = pure (total, b, w) := by
  cases rounds with
  | zero => rfl
  | succ rounds =>
    rw [writeRounds, if_neg]
    rw [Bool.and_eq_true, decide_eq_true_eq, Option.isNone_iff_eq_none]
    rintro ⟨hlt, hnone⟩
    rcases h with hle | hsome
    · omega
    · rw [hnone] at hsome
      cases hsome

variable [Keeping κ]

/-- A round that finds the buffer empty is the last one. -/
theorem Round.rested {b : Bytes} {w w' : Writer κ} {ss : List Send} {n : Nat}
    (h : w.Round b ss n w') (hqueued : w.queued = []) : w'.Rested (b.drop n) := by
  cases hfault : w'.fault with
  | none =>
    refine .inl ?_
    rw [(h.empties hfault).2 hqueued, List.drop_length]
    exact Nat.zero_le _
  | some e => exact .inr (by rw [hfault]; rfl)

/-- Rounds that only differ in what is to come are the same if nothing is to come. -/
theorem writeRounds_succ_congr [HonestSink H κ] {m n : Nat} (total : Nat) (b : Bytes)
    (w : Writer κ)
    (h : ∀ ss k w', w.Round b ss k w' → ∀ total,
      w'.writeRounds m total (b.drop k) = w'.writeRounds n total (b.drop k)) :
    w.writeRounds (m + 1) total b = w.writeRounds (n + 1) total b := by
  rw [writeRounds, writeRounds]
  split
  · refine Act.bind_congr_of_meets (H := H) fun sh => ?_
    refine (writeRound_meets b w).imp ?_
    rintro ⟨k, w'⟩ sh' ⟨ss, hr⟩
    exact h ss k w' hr _
  · rfl

/-- **Two rounds are all there are.**  A loop that may go on does not. -/
theorem writeRounds_eq [HonestSink H κ] {rounds : Nat} (hrounds : 2 ≤ rounds) (total : Nat)
    (b : Bytes) (w : Writer κ) : w.writeRounds rounds total b = w.writeRounds 2 total b := by
  obtain ⟨rounds, rfl⟩ := Nat.exists_eq_add_of_le' hrounds
  refine writeRounds_succ_congr (H := H) total b w fun ss n w₁ hr total => ?_
  cases hfault : w₁.fault with
  | none =>
    have hqueued := (hr.empties hfault).1
    refine writeRounds_succ_congr (H := H) total _ w₁ fun ts m w₂ hr₁ total => ?_
    have hrested := hr₁.rested hqueued
    rw [hrested.writeRounds_eq, hrested.writeRounds_eq]
  | some e =>
    have hrested : w₁.Rested (b.drop n) := .inr (by rw [hfault]; rfl)
    rw [hrested.writeRounds_eq, hrested.writeRounds_eq]

/-- Two rounds leave bytes that fit, or a sink that failed. -/
theorem Rounds.rested {b : Bytes} {w w' : Writer κ} {ss : List Send} {n : Nat}
    (h : Rounds 2 b w ss n w') : w'.Rested (b.drop n) := by
  cases hfault : w'.fault with
  | none => exact .inl (h.fits hfault)
  | some e => exact .inr (by rw [hfault]; rfl)

/-! ## The calls of the rounds -/

variable {b : Bytes} {w w' : Writer κ} {ss : List Send} {n : Nat}

/-- Unless the sink has failed, a queue is passed on by one call. -/
theorem Flushes.single (h : w.Flushes ss w') (hfault : w.fault = none) (hne : w.queued ≠ []) :
    ∃ receipt, ss = [⟨w.queued, receipt⟩] ∧ w'.fault = shortfall w.queued receipt := by
  cases h with
  | idle h => rcases h with hsome | hnil <;> simp_all
  | @passed receipt w₁ _ _ hp =>
    refine ⟨receipt, rfl, ?_⟩
    show w₁.fault = _
    rw [hp.fault_eq, hfault, Option.or_none]

theorem Rounds.idle {rounds : Nat} (h : Rounds rounds b w ss n w') (hrested : w.Rested b) :
    ss = [] ∧ n = 0 ∧ w' = w := by
  cases h with
  | done => exact ⟨rfl, rfl, rfl⟩
  | round hlong hfault =>
    rcases hrested with hle | hsome
    · omega
    · rw [hfault] at hsome
      cases hsome

/-- Bytes that find the buffer empty take one call, if they are too long for it. -/
theorem Rounds.direct {rounds : Nat} (h : Rounds (rounds + 1) b w ss n w')
    (hqueued : w.queued = []) : (ss = [] ∧ w' = w ∧ w.Rested b) ∨
      ∃ receipt, ss = [⟨b, receipt⟩] ∧ n = receipt.count ∧ w.size < b.length := by
  cases h with
  | done h => exact .inl ⟨rfl, rfl, h.imp id fun h => h.resolve_right (Nat.succ_ne_zero _)⟩
  | round hlong hfault hr hrest =>
    have hall : w.available = w.size := by rw [available, buffered, hqueued]; rfl
    cases hr with
    | @direct receipt _ _ hp =>
      obtain ⟨rfl, rfl, -⟩ := hrest.idle ((Round.direct hqueued hp).rested hqueued)
      exact .inr ⟨receipt, rfl, rfl, hall ▸ hlong⟩
    | topped hne => exact absurd hqueued hne

theorem Rounds.asks (h : Rounds 2 b w ss n w') (hw : w.WF) : w.Asks b ss := by
  cases h with
  | done h => exact .nothing (h.imp id fun h => h.resolve_right (by decide))
  | @round _ _ _ w₁ _ ss ts _ _ hlong hfault hr hrest =>
    by_cases hqueued : w.queued = []
    · have hall : w.available = w.size := by rw [available, buffered, hqueued]; rfl
      cases hr with
      | direct _ hp =>
        obtain ⟨rfl, -, -⟩ := hrest.idle ((Round.direct hqueued hp).rested hqueued)
        exact .direct hqueued (hall ▸ hlong)
      | topped hne => exact absurd hqueued hne
    · cases hr with
      | direct h => exact absurd h hqueued
      | topped _ hc hf =>
        have htaken : (b.take w.available).length = w.available :=
          List.length_take_of_le (Nat.le_of_lt hlong)
        have hfull : (w.queued ++ b.take w.available).length = w.size := by
          have := hw.fits
          rw [List.length_append, htaken, available, buffered]
          omega
        obtain ⟨receipt, rfl, hfault₁⟩ := hf.single (hc.fault_eq.trans hfault) (by
          rw [hc.queued_eq]
          exact fun h => hqueued (List.append_eq_nil_iff.mp h).1)
        rw [hc.queued_eq] at hfault₁ ⊢
        rw [htaken] at hrest
        cases hshort : shortfall (w.queued ++ b.take w.available) receipt with
        | some e =>
          obtain ⟨rfl, -, -⟩ := hrest.idle (.inr (by rw [hfault₁, hshort]; rfl))
          exact .flush hlong hfull (.inr (by rw [hshort]; rfl))
        | none =>
          have hempty := hf.queued_eq_nil (hfault₁.trans hshort)
          have hsize : w₁.size = w.size := hf.size_eq.trans hc.size_eq
          rcases hrest.direct hempty with ⟨rfl, -, hrested⟩ | ⟨receipt', rfl, -, hrestlong⟩
          · refine .flush hlong hfull (.inl ?_)
            have hle := hrested.resolve_right (by rw [hfault₁, hshort]; simp)
            exact Nat.le_trans hle (hsize ▸ Nat.sub_le ..)
          · exact .flushThenDirect hfull hshort (hsize ▸ hrestlong)

/-- **A write makes at most two calls**, and what they offer is known beforehand. -/
theorem Writes.asks {receipt : Receipt} (h : w.Writes b ss receipt w') (hw : w.WF) :
    w.Asks b ss := by
  cases h with
  | failed hr => exact hr.asks hw
  | queued hr => exact hr.asks hw

/-! ## What a write answers -/

/-- What the answer to a write of `b` says of the writer `w'` that it leaves. -/
structure Promises (b : Bytes) (receipt : Receipt) (w' : Writer κ) : Prop where
  count_le : receipt.count ≤ b.length
  fault_eq : receipt.fault = w'.fault
  count_eq : w'.fault = none → receipt.count = b.length

theorem Writes.promises {receipt : Receipt} (h : w.Writes b ss receipt w') :
    Promises b receipt w' where
  count_le := h.count_le
  fault_eq := h.fault_eq.symm
  count_eq hfault := h.count_eq (h.fault_eq.symm.trans hfault)

end Writer

namespace Writer

variable {κ : Type} {H : Halt → Prop} [BulkSink κ] [Keeping κ] [HonestSink H κ]

/-- **A write ends as promised, with two calls at most.**  The loop of a write goes round at
most twice, with however many rounds it may take, and stops with bytes that fit or with a
sink that failed.  The write answers with the error that the writer then has, if any, and has
taken everything if there is none.  Of the sink it asks to take the full buffer, once, and
then all of the rest, once and only if that is longer than the buffer; bytes that fit ask
nothing of it. -/
theorem write_asks_at_most_twice {w : Writer (Watched κ)} (hw : w.WF) (b : Bytes) (sh : Shared) :
    (∀ rounds total, 2 ≤ rounds → w.writeRounds rounds total b = w.writeRounds 2 total b) ∧
      (∀ total, Act.Meets H (w.writeRounds 2 total b) sh fun (_, rest, w') _ =>
        w'.Rested rest) ∧
      Act.Meets H (w.write b) sh fun (receipt, w') _ => Promises b receipt w' ∧
        ∃ ss, w.Asks b ss ∧ w'.sink.calls = w.sink.calls ++ ss.map Send.call ∧
          ss.length ≤ 2 ∧ (b.length ≤ w.available → ss = []) := by
  refine ⟨fun rounds total hrounds => writeRounds_eq (H := H) hrounds total b w,
    fun total => ?_, ?_⟩
  · refine (writeRounds_meets 2 total b w).imp ?_
    rintro ⟨total', rest, w'⟩ sh' ⟨ss, n, hr, rfl, rfl⟩
    exact hr.rested
  · refine (write_meets b w).imp ?_
    rintro ⟨receipt, w'⟩ sh' ⟨ss, hwrites⟩
    have hasks := hwrites.asks hw
    exact ⟨hwrites.promises, ss, hasks, Watched.calls_of_sends hwrites.sends, hasks.length_le,
      hasks.eq_nil⟩

/-- A writer with one byte queued in a buffer of two. -/
def halfFull : Writer (Watched MemorySink) :=
  { sink := .start ⟨[]⟩, size := 2, pool := 0, queued := [0x61], held := some 4096 }

/-- Five bytes top the buffer up and leave four, too many for the emptied buffer. -/
theorem write_asks_at_most_twice_halfFull :
    ∃ receipt w' sh', halfFull.write [0x62, 0x63, 0x64, 0x65, 0x66] { pools := [] } =
        .ok (receipt, w') sh' ∧
      w'.sink.calls = [.write [0x61, 0x62] 2 none, .write [0x63, 0x64, 0x65, 0x66] 4 none] ∧
      Promises [0x62, 0x63, 0x64, 0x65, 0x66] receipt w' ∧
      ∃ ss, halfFull.Asks [0x62, 0x63, 0x64, 0x65, 0x66] ss ∧ ss.length ≤ 2 := by
  have hw : halfFull.WF := ⟨by decide, by decide, by rintro ⟨⟩⟩
  obtain ⟨-, -, hwrite⟩ := write_asks_at_most_twice (H := fun _ => False) hw
    [0x62, 0x63, 0x64, 0x65, 0x66] { pools := [] }
  obtain ⟨hpromises, ss, hasks, -, hlength, -⟩ := hwrite.of_ok rfl
  exact ⟨_, _, _, rfl, rfl, hpromises, ss, hasks, hlength⟩

end Writer

end BufferedStream
