import BufferedStream.Demo.Connections
import BufferedStream.Proofs.Writer.Acceptance

/-!
# Writing to a sink with a budget

A sink with a budget takes bytes until the budget is spent; from then on it fails every
write that it cannot take whole, with an error or by taking too few.  Wherever the
budget runs out — in a write that goes to the sink directly, while a full buffer is
passed on, or in the last flush — the sink ends up with just as many bytes from the
front as the budget allows, and the flush succeeds if these are all.

* `Budgeted` — a sink with a budget.
* `Writer.Spends` — what writing some bytes does: all are accepted, or the budget is
  spent and some are missing.
* `Writer.flush_within_budget` — pieces written one after another, and flushed.
-/

namespace BufferedStream

open Keeping (kept)

/-! ## Sinks with a budget -/

/-- A sink that takes bytes until its budget is spent.  A write within the budget
succeeds; any other takes what the budget allows, and what it reports is left open. -/
class Budgeted (κ : Type) [ByteSink κ] [Keeping κ] where
  budget : κ → Nat
  write_spends (k : κ) (b : Bytes) (sh : Shared) :
    Act.Returns (ByteSink.write k b) sh fun (receipt, k') _ =>
      receipt.count = min b.length (budget k) ∧ (b.length ≤ budget k → receipt.fault = none) ∧
        budget k' = budget k - receipt.count ∧ kept k' = kept k ++ b.take receipt.count

open Budgeted (budget)

variable {κ : Type}

instance {H : Halt → Prop} [ByteSink κ] [Keeping κ] [Budgeted κ] : HonestSink H κ where
  write_honest k b sh := by
    refine (Budgeted.write_spends k b sh).mono (fun _ he => he.elim) ?_
    rintro ⟨receipt, k'⟩ sh' ⟨hcount, -, -, hkept⟩
    exact ⟨hcount ▸ Nat.min_le_left .., hkept⟩

instance [ByteSink κ] [Keeping κ] [Budgeted κ] : Budgeted (Unbulked κ) where
  budget u := budget u.sink
  write_spends u b sh := by
    refine Act.meets_bind.mpr ((Budgeted.write_spends u.sink b sh).imp ?_)
    intro a sh' ha
    exact ha

instance : Keeping Demo.FlakyLink := ⟨Demo.FlakyLink.sent⟩

/-- A connection that breaks reports an error. -/
instance : Budgeted Demo.FlakyLink where
  budget := Demo.FlakyLink.budget
  write_spends k b sh := by
    by_cases h : min b.length k.budget < b.length
    · have hlong : ¬ b.length ≤ k.budget := by omega
      simp only [ByteSink.write, h, if_true, Act.Returns, Act.meets_bind]
      exact ⟨rfl, fun hle => absurd hle hlong, rfl, rfl⟩
    · simp only [ByteSink.write, h, if_false]
      exact ⟨rfl, fun _ => rfl, rfl, rfl⟩

/-- A disk with room for so many more bytes; a full one takes too few and reports
nothing. -/
structure Disk where
  stored : Bytes := []
  room : Nat

instance : BulkSink Disk where
  write d b :=
    let n := min b.length d.room
    return (⟨n, none⟩, ⟨d.stored ++ b.take n, d.room - n⟩)
  readFrom d s := return (none, d, s)

instance : Keeping Disk := ⟨Disk.stored⟩

instance : Budgeted Disk where
  budget := Disk.room
  write_spends _ _ _ := ⟨rfl, fun _ => rfl, rfl, rfl⟩

section Sends

variable [ByteSink κ] [Keeping κ] [Budgeted κ] {k k' : κ} {b : Bytes} {receipt : Receipt}
  {ss : List Send}

theorem Budgeted.of_writes (h : ByteSink.Writes k b receipt k') :
    receipt.count = min b.length (budget k) ∧ (b.length ≤ budget k → receipt.fault = none) ∧
      budget k' = budget k - receipt.count ∧ kept k' = kept k ++ b.take receipt.count := by
  obtain ⟨sh, sh', h⟩ := h
  exact (Budgeted.write_spends k b sh).of_ok h

/-- A write that fails finds the budget too small, and spends what is left of it. -/
theorem Budgeted.spent_of_writes (h : ByteSink.Writes k b receipt k')
    (hfailed : Writer.shortfall b receipt ≠ none) : budget k' = 0 ∧ receipt.count < b.length := by
  obtain ⟨hcount, hwhole, hbudget, -⟩ := Budgeted.of_writes h
  have hlong : budget k < b.length := by
    refine Nat.lt_of_not_le fun hle => hfailed ?_
    rw [Writer.shortfall, hwhole hle, if_neg (by omega)]
    rfl
  omega

/-- By induction on the writes: each takes from the budget what it keeps. -/
theorem Budgeted.balance_of_sends (h : Sends k ss k') :
    (kept k').length + budget k' = (kept k).length + budget k := by
  induction h with
  | nil => rfl
  | cons hw _ ih =>
    obtain ⟨hcount, -, hbudget, hkept⟩ := Budgeted.of_writes hw
    rw [ih, hkept, List.length_append, List.length_take, hbudget]
    omega

theorem Budgeted.le_of_sends (h : Sends k ss k') : budget k' ≤ budget k := by
  induction h with
  | nil => exact Nat.le_refl _
  | cons hw _ ih =>
    obtain ⟨-, -, hbudget, -⟩ := Budgeted.of_writes hw
    omega

/-- By induction on the writes: once one has failed, the budget is spent. -/
theorem Budgeted.spent_of_sends (h : Sends k ss k')
    (hfailed : firstFailure (ss.map Send.call) ≠ none) : budget k' = 0 := by
  induction h with
  | nil => exact absurd rfl hfailed
  | @cons _ _ _ b receipt ss hw hrest ih =>
    by_cases hfirst : Writer.shortfall b receipt = none
    · refine ih fun hnone => hfailed ?_
      show firstFailure ([Send.call ⟨b, receipt⟩] ++ ss.map Send.call) = none
      rw [firstFailure_append, firstFailure_single, hfirst, hnone]
      rfl
    · have hle := Budgeted.le_of_sends hrest
      have hspent := (Budgeted.spent_of_writes hw hfirst).1
      omega

end Sends

namespace Writer

section Short

variable [ByteSink κ] [Keeping κ] [Budgeted κ] {w w' : Writer κ} {ss : List Send}

/-! ## What a failure leaves behind

Over a sink with a budget a write never fails for nothing: some of the bytes that were
to be passed on are still with the writer, or were not accepted. -/

theorem Passes.short {b : Bytes} {receipt : Receipt} (h : w.Passes b receipt w')
    (hnone : w.fault = none) (hfailed : w'.fault ≠ none) : receipt.count < b.length := by
  rw [h.fault_eq, hnone, Option.or_none] at hfailed
  exact (Budgeted.spent_of_writes h.writes hfailed).2

theorem Flushes.short (h : w.Flushes ss w') (hnone : w.fault = none) (hfailed : w'.fault ≠ none) :
    w'.queued ≠ [] := by
  cases h with
  | idle => exact absurd hnone hfailed
  | @passed receipt w₁ _ _ hp =>
    have hlt := hp.short hnone hfailed
    show w₁.queued.drop receipt.count ≠ []
    rw [hp.queued_eq, Ne, List.drop_eq_nil_iff]
    omega

theorem MakesRoom.short {n : Nat} (h : w.MakesRoom n ss w') (hnone : w.fault = none)
    (hfailed : w'.fault ≠ none) : w'.queued ≠ [] := by
  cases h with
  | enough => exact absurd hnone hfailed
  | flushed _ hf => exact hf.short hnone hfailed

theorem FlushesOut.short (h : w.FlushesOut ss w') (hnone : w.fault = none)
    (hfailed : w'.fault ≠ none) : w'.queued ≠ [] := by
  obtain ⟨w₁, hf, hs⟩ := h
  rw [hs.fault_eq] at hfailed
  rw [hs.queued_eq]
  exact hf.short hnone hfailed

theorem Round.short {b : Bytes} {n : Nat} (h : w.Round b ss n w') (hnone : w.fault = none)
    (hfailed : w'.fault ≠ none) : n < b.length ∨ w'.queued ≠ [] := by
  cases h with
  | direct _ hp => exact .inl (hp.short hnone hfailed)
  | topped _ hc hf => exact .inr (hf.short (hc.fault_eq.trans hnone) hfailed)

/-- By induction on the rounds, of which none follows a failure. -/
theorem Rounds.short {rounds n : Nat} {b : Bytes} (h : Rounds rounds b w ss n w')
    (hnone : w.fault = none) (hfailed : w'.fault ≠ none) : n < b.length ∨ w'.queued ≠ [] := by
  induction h with
  | done => exact absurd hnone hfailed
  | @round _ b _ w₁ _ _ _ n m _ _ hr hrest ih =>
    cases hfault : w₁.fault with
    | none =>
      refine (ih hfault hfailed).imp_left fun hlt => ?_
      rw [List.length_drop] at hlt
      omega
    | some e =>
      obtain ⟨rfl, rfl⟩ := hrest.refused hfault
      exact hr.short hnone hfailed

theorem Writes.short {b : Bytes} {receipt : Receipt} (h : w.Writes b ss receipt w')
    (hnone : w.fault = none) (hfailed : w'.fault ≠ none) :
    receipt.count < b.length ∨ w'.queued ≠ [] := by
  cases h with
  | failed hr => exact hr.short hnone hfailed
  | queued hr hnone' hc => exact absurd (hc.fault_eq.trans hnone') hfailed

theorem Puts.short {n : Nat} {b : Bytes} (h : w.Puts n b ss w') (hnone : w.fault = none)
    (hfailed : w'.fault ≠ none) : w'.queued ≠ [] := by
  cases h with
  | failed hm => exact hm.short hnone hfailed
  | queued _ hnone' => exact absurd hnone' hfailed

/-! ## What writing some bytes does -/

/-- The sink has kept less than it should have. -/
def Lacking (w : Writer κ) (due : Bytes) : Prop :=
  ∃ missing, missing ≠ [] ∧ kept w.sink ++ missing = due

/-- What writing the bytes `c` does to a writer: all are accepted, or the budget is
spent and some of the bytes written so far are missing.  A writer that has failed
before leaves its sink alone. -/
structure Spends (c : Bytes) (w w' : Writer κ) : Prop where
  balance : (kept w'.sink).length + budget w'.sink = (kept w.sink).length + budget w.sink
  accepted : w'.fault = none → w.fault = none ∧ w'.holds = w.holds ++ c
  short : w.fault = none → w'.fault ≠ none → budget w'.sink = 0 ∧ w'.Lacking (w.holds ++ c)
  refused : w.fault ≠ none → w'.sink = w.sink

/-- An operation does so that accepts a part of the bytes, all unless it fails, and leaves
something behind when it does. -/
theorem Spends.of_latches {c : Bytes} {n : Nat} (hsends : Sends w.sink ss w'.sink)
    (hlatches : Latches w.fault (ss.map Send.call) w'.fault)
    (hholds : w'.holds = w.holds ++ c.take n) (hall : w'.fault = none → c.length ≤ n)
    (hshort : w.fault = none → w'.fault ≠ none → n < c.length ∨ w'.queued ≠ []) :
    w.Spends c w' where
  balance := Budgeted.balance_of_sends hsends
  accepted hnone' := by
    refine ⟨(Option.or_eq_none_iff.mp (hlatches.fault_eq.symm.trans hnone')).1, ?_⟩
    rw [hholds, List.take_of_length_le (hall hnone')]
  short hnone hfailed := by
    refine ⟨Budgeted.spent_of_sends hsends fun hquiet => hfailed ?_, w'.queued ++ c.drop n, ?_, ?_⟩
    · rw [hlatches.fault_eq, hnone, hquiet]
      rfl
    · intro hnil
      obtain ⟨hqueued, hdrop⟩ := List.append_eq_nil_iff.mp hnil
      rcases hshort hnone hfailed with hlt | hne
      · exact absurd (List.drop_eq_nil_iff.mp hdrop) (Nat.not_le.mpr hlt)
      · exact hne hqueued
    · rw [← List.append_assoc]
      show w'.holds ++ c.drop n = _
      rw [hholds, List.append_assoc, List.take_append_drop]
  refused hsome := by
    obtain ⟨e, he⟩ := Option.ne_none_iff_exists'.mp hsome
    rw [List.map_eq_nil_iff.mp (hlatches.eq_nil he)] at hsends
    exact hsends.nil_eq

theorem Writes.spends {b : Bytes} {receipt : Receipt} (h : w.Writes b ss receipt w') :
    w.Spends b w' :=
  .of_latches h.sends h.latches h.holds_eq
    (fun hnone => Nat.le_of_eq (by rw [h.receipt_eq hnone])) h.short

theorem Puts.spends {n : Nat} {b : Bytes} (h : w.Puts n b ss w') : w.Spends b w' := by
  rcases h.holds_eq with ⟨hnone', hholds⟩ | ⟨hsome, hholds⟩
  · refine .of_latches (n := b.length) h.sends h.latches ?_ (fun _ => Nat.le_refl _)
      fun _ hfailed => absurd hnone' hfailed
    rw [hholds, List.take_length]
  · refine .of_latches (n := 0) h.sends h.latches ?_ (fun hnone => ?_)
      fun hnone hfailed => .inr (h.short hnone hfailed)
    · rw [hholds, List.take_zero, List.append_nil]
    · rw [hnone] at hsome
      cases hsome

theorem FlushesOut.spends (h : w.FlushesOut ss w') : w.Spends [] w' := by
  refine .of_latches (n := 0) h.sends h.latches ?_ (fun _ => Nat.le_refl _)
    fun hnone hfailed => .inr (h.short hnone hfailed)
  rw [h.holds_eq, List.take_zero, List.append_nil]

/-! ## Deliveries -/

/-- A writer that has been asked to write `total` to a sink that had kept `before` and
had a budget of `limit`: it answers for all, or it has failed since the budget is spent
and some of it is missing. -/
structure Delivers (before : Bytes) (limit : Nat) (total : Bytes) (w : Writer κ) : Prop where
  balance : (kept w.sink).length + budget w.sink = before.length + limit
  accepted : w.fault = none → w.holds = before ++ total
  short : w.fault ≠ none → budget w.sink = 0 ∧ w.Lacking (before ++ total)

theorem Fresh.delivers {k : κ} (h : Fresh k w) : w.Delivers (kept k) (budget k) [] where
  balance := by rw [h.sink]
  accepted _ := by rw [h.holds_eq, List.append_nil]
  short hfailed := absurd h.fault hfailed

/-- **Writing more keeps the delivery going**, or the failure for good. -/
theorem Delivers.step {before total c : Bytes} {limit : Nat} (h : w.Delivers before limit total)
    (hy : w.Spends c w') : w'.Delivers before limit (total ++ c) where
  balance := hy.balance.trans h.balance
  accepted hnone' := by
    obtain ⟨hnone, hholds⟩ := hy.accepted hnone'
    rw [hholds, h.accepted hnone, List.append_assoc]
  short hfailed := by
    by_cases hnone : w.fault = none
    · have hshort := hy.short hnone hfailed
      rwa [h.accepted hnone, List.append_assoc] at hshort
    · obtain ⟨hspent, missing, hne, hmissing⟩ := h.short hnone
      have hsink := hy.refused hnone
      refine ⟨hsink ▸ hspent, missing ++ c, ?_, ?_⟩
      · exact fun hnil => hne (List.append_eq_nil_iff.mp hnil).1
      · rw [hsink, ← List.append_assoc, hmissing, List.append_assoc]

/-- A delivery with nothing queued, unless it has failed, is the part that the budget
allows; it is the whole just if the writer has not failed. -/
theorem Delivers.delivered {before total : Bytes} {limit : Nat} (h : w.Delivers before limit total)
    (hflushed : w.fault = none → w.queued = []) :
    kept w.sink = before ++ total.take limit ∧ (w.fault = none ↔ total.length ≤ limit) := by
  have hbalance := h.balance
  by_cases hnone : w.fault = none
  · have hkept : kept w.sink = before ++ total := by
      rw [← h.accepted hnone, holds, hflushed hnone, List.append_nil]
    rw [hkept, List.length_append] at hbalance
    have hle : total.length ≤ limit := by omega
    exact ⟨by rw [hkept, List.take_of_length_le hle], fun _ => hle, fun _ => hnone⟩
  · obtain ⟨hspent, missing, hne, hmissing⟩ := h.short hnone
    have hlength : (kept w.sink).length = before.length + limit := by omega
    have hpos := List.length_pos_iff.mpr hne
    have htotal := congrArg List.length hmissing
    rw [List.length_append, List.length_append, hlength] at htotal
    refine ⟨?_, fun h => absurd h hnone, fun hle => by omega⟩
    have htake := congrArg (List.take (before.length + limit)) hmissing
    rw [← hlength, List.take_left, hlength, List.take_length_add_append] at htake
    exact htake

end Short

/-! ## Pieces, and the last flush -/

variable {ν : Type} [ByteSource ν] [BulkSink κ] [Keeping κ] [Budgeted κ] {w : Writer κ}
  {sh : Shared}

/-- Writing a piece. -/
theorem perform_piece_spends (p : Piece) (h : w.WF) :
    Act.Returns (perform (p.op : Op ν) (.writing w)) sh fun (_, st) _ =>
      ∃ w', st = .writing w' ∧ w'.WF ∧ w.Spends p.content w' := by
  refine (perform_meets_of_readFrom p.op h fun s hs => by cases p <;> cases hs).imp ?_
  rintro ⟨outcome, st⟩ sh' hp
  have hwf := hp.wf h
  cases p with
  | bytes b =>
    cases hp with
    | write hw => exact ⟨_, rfl, hwf, hw.spends⟩
  | text s =>
    cases hp with
    | writeText hw => exact ⟨_, rfl, hwf, hw.spends⟩
  | byte b =>
    cases hp with
    | writeByte hw => exact ⟨_, rfl, hwf, hw.spends⟩

/-- The entries of a run that ends with a flush of the given result, which leaves the
writer `w`. -/
def FlushedLast (entries : List (Entry (Op ν) (Outcome ν) (Stage κ))) (result : Except Error Unit)
    (w : Writer κ) : Prop :=
  ∃ written, entries = written ++ [⟨.flush, .flushed result, .writing w⟩]

/-- By induction on the pieces: the delivery goes on with each, and the flush ends it. -/
theorem flushAll_returns {before total : Bytes} {limit : Nat} (pieces : List Piece) (hwf : w.WF)
    (h : w.Delivers before limit total) :
    Act.Returns (Act.performAll perform (pieces.map Piece.op ++ [.flush] : List (Op ν))
      (.writing w)) sh fun entries _ => ∃ w', FlushedLast entries (w'.outcome ()) w' ∧
        w'.Delivers before limit (total ++ pieces.flatMap Piece.content) ∧
        (w'.fault = none → w'.queued = []) := by
  induction pieces generalizing w total sh with
  | nil =>
    refine Act.meets_bind.mpr (Act.meets_bind.mpr ((flush_meets w).imp ?_))
    rintro ⟨result, w'⟩ sh' ⟨ss, hf, rfl⟩
    exact ⟨w', ⟨[], rfl⟩, h.step hf.spends, hf.queued_eq_nil⟩
  | cons p pieces ih =>
    refine Act.meets_bind.mpr ((perform_piece_spends p hwf).imp ?_)
    rintro ⟨outcome, st⟩ sh' ⟨w₁, rfl, hwf₁, hy⟩
    refine Act.meets_bind.mpr ((ih hwf₁ (h.step hy)).imp ?_)
    rintro entries sh'' ⟨w', ⟨written, rfl⟩, hdelivers, hflushed⟩
    rw [List.append_assoc] at hdelivers
    exact ⟨w', ⟨_ :: written, rfl⟩, hdelivers, hflushed⟩

/-- **What arrives does not depend on the buffer.**  Over a sink with a budget, with a
buffer of any size from any pool, and however the content is cut into pieces, the sink
ends up with just as much of its front as the budget allows, and the flush succeeds if
and only if that is all of it. -/
theorem flush_within_budget (k : κ) (size : Nat) (pool : PoolId) (pieces : List Piece)
    (sh : Shared) :
    Act.Returns (do
      Act.performAll perform (pieces.map Piece.op ++ [.flush] : List (Op ν))
        (.writing (← withCapacity k size pool))) sh fun entries _ =>
      ∃ result w, FlushedLast entries result w ∧
        kept w.sink = kept k ++ (pieces.flatMap Piece.content).take (budget k) ∧
        (result = .ok () ↔ (pieces.flatMap Piece.content).length ≤ budget k) := by
  refine Act.meets_bind.mpr ((withCapacity_meets k size pool).imp ?_)
  rintro w sh₁ ⟨hfresh, -, -⟩
  refine (flushAll_returns pieces hfresh.wf hfresh.delivers).imp ?_
  rintro entries sh' ⟨w', hlast, hdelivers, hflushed⟩
  obtain ⟨hkept, hfault⟩ := hdelivers.delivered hflushed
  refine ⟨w'.outcome (), w', hlast, hkept, Iff.trans ⟨fun hok => ?_, outcome_of_none ()⟩ hfault⟩
  cases he : w'.fault with
  | none => rfl
  | some e =>
    rw [outcome_of_some () he] at hok
    cases hok

/-- A connection that breaks after five bytes. -/
def brittle : Unbulked Demo.FlakyLink := ⟨{ sent := [0x21], budget := 5 }⟩

/-- A text fills the buffer, a byte has it passed on, and the rest breaks the connection. -/
theorem flush_within_budget_brittle :
    ∃ entries sh' result w,
      (do Act.performAll perform
            ([.bytes [0x61], .text "bc", .byte 0x64, .bytes [0x65, 0x66, 0x67]].map Piece.op
              ++ [.flush] : List (Op MemorySource))
            (.writing (← withCapacity brittle 3 0)) : Act _)
        { pools := [] } = .ok entries sh' ∧
      FlushedLast entries result w ∧ kept w.sink = [0x21, 0x61, 0x62, 0x63, 0x64, 0x65] ∧
        result ≠ .ok () := by
  obtain ⟨entries, sh', hrun, result, w, hlast, hkept, hok⟩ :=
    (flush_within_budget (ν := MemorySource) brittle 3 0
      [.bytes [0x61], .text "bc", .byte 0x64, .bytes [0x65, 0x66, 0x67]] { pools := [] }).exists_ok
  refine ⟨entries, sh', result, w, hrun, hlast, hkept.trans (by decide +kernel), fun h => ?_⟩
  exact absurd (hok.mp h) (by decide +kernel)

end Writer

end BufferedStream
