import BufferedStream.Proofs.Writer.Latching

/-!
# Writing to a sink that takes everything

Over a sink that takes everything no write fails, so nothing is ever latched: whatever
is written is accepted in full, and once the writer is given up the sink has it all.

* `Writer.Piece` — something to write: bytes, a text, or one byte.
* `Writer.writeAll_returns` — pieces written one after another, and the writer given up.
-/

namespace BufferedStream

open Keeping (kept)

/-- What a sink that takes everything answered. -/
theorem Accepting.of_writes {κ : Type} [ByteSink κ] [Keeping κ] [Accepting κ] {k k' : κ} {b : Bytes}
    {receipt : Receipt} (h : ByteSink.Writes k b receipt k') : receipt = ⟨b.length, none⟩ := by
  obtain ⟨sh, sh', h⟩ := h
  exact ((Accepting.write_accepts k b sh).of_ok h).1

/-- By induction on the writes: none of them fails. -/
theorem Accepting.of_sends {κ : Type} [ByteSink κ] [Keeping κ] [Accepting κ] {k k' : κ}
    {ss : List Send} (h : Sends k ss k') : firstFailure (ss.map Send.call) = none := by
  induction h with
  | nil => rfl
  | @cons _ _ _ b receipt ss hw _ ih =>
    obtain rfl := Accepting.of_writes hw
    have hcons := firstFailure_append [Send.call ⟨b, ⟨b.length, none⟩⟩] (ss.map Send.call)
    rw [firstFailure_single, ih, Writer.shortfall, if_neg (Nat.lt_irrefl _)] at hcons
    exact hcons

namespace Writer

/-- Something to write. -/
inductive Piece where
  | bytes (b : Bytes)
  | text (s : String)
  | byte (b : UInt8)

namespace Piece

variable {ν : Type}

/-- The operation that writes a piece. -/
def op : Piece → Op ν
  | .bytes b => .write b
  | .text s => .writeText s
  | .byte b => .writeByte b

/-- The bytes of a piece. -/
def content : Piece → Bytes
  | .bytes b => b
  | .text s => Bytes.ofText s
  | .byte b => [b]

/-- The outcome of writing a piece that is accepted in full. -/
def accepted : Piece → Outcome ν
  | .bytes b => .receipt ⟨b.length, none⟩
  | .text s => .receipt ⟨(Bytes.ofText s).length, none⟩
  | .byte _ => .byte (.ok ())

end Piece

variable {ν κ : Type} [ByteSource ν] [BulkSink κ] [Keeping κ] [Accepting κ] {w w' : Writer κ}
  {ss : List Send} {sh : Shared}

/-- Writes that a sink takes leave nothing latched. -/
theorem none_of_latches {fault' : Option Error} {k k' : κ}
    (h : Latches w.fault (ss.map Send.call) fault') (hs : Sends k ss k') (hnone : w.fault = none) :
    fault' = none := by
  rw [h.fault_eq, hnone, Accepting.of_sends hs]
  rfl

/-- Flushing leaves everything with the sink. -/
theorem flush_delivers (hnone : w.fault = none) :
    Act.Returns w.flush sh fun (result, w') _ =>
      result = .ok () ∧ kept w'.sink = w.holds ∧ w'.queued = [] := by
  refine (flush_meets w).imp ?_
  rintro ⟨result, w'⟩ sh' ⟨ss, hf, rfl⟩
  have hnone' := none_of_latches hf.latches hf.sends hnone
  have hqueued := hf.queued_eq_nil hnone'
  refine ⟨outcome_of_none () hnone', ?_, hqueued⟩
  rw [← hf.holds_eq, holds, hqueued, List.append_nil]

/-- Bytes are written in full. -/
theorem Writes.accepted {b : Bytes} {receipt : Receipt} (h : w.Writes b ss receipt w')
    (hnone : w.fault = none) :
    w'.fault = none ∧ receipt = ⟨b.length, none⟩ ∧ w'.holds = w.holds ++ b := by
  have hnone' := none_of_latches h.latches h.sends hnone
  have hreceipt := h.receipt_eq hnone'
  refine ⟨hnone', hreceipt, ?_⟩
  rw [h.holds_eq, hreceipt, List.take_length]

/-- Writing a piece that is accepted in full. -/
theorem perform_piece (p : Piece) (h : w.WF) (hnone : w.fault = none) :
    Act.Returns (perform (p.op : Op ν) (.writing w)) sh fun (outcome, st) _ =>
      outcome = p.accepted ∧ ∃ w', st = .writing w' ∧ w'.WF ∧ w'.fault = none ∧
        w'.holds = w.holds ++ p.content := by
  refine (perform_meets_of_readFrom p.op h fun s hs => by cases p <;> cases hs).imp ?_
  rintro ⟨outcome, st⟩ sh' hp
  have hwf := hp.wf h
  cases p with
  | bytes b =>
    cases hp with
    | write hw =>
      obtain ⟨hnone', rfl, hholds⟩ := hw.accepted hnone
      exact ⟨rfl, _, rfl, hwf, hnone', hholds⟩
  | text s =>
    cases hp with
    | writeText hw =>
      obtain ⟨hnone', rfl, hholds⟩ := hw.accepted hnone
      exact ⟨rfl, _, rfl, hwf, hnone', hholds⟩
  | byte b =>
    cases hp with
    | @writeByte _ _ w' hw =>
      have hnone' := none_of_latches hw.latches hw.sends hnone
      refine ⟨congrArg Outcome.byte (outcome_of_none () hnone'), w', rfl, hwf, hnone', ?_⟩
      refine (hw.holds_eq.resolve_right fun hfailed => ?_).2
      rw [hnone'] at hfailed
      cases hfailed.1

/-- Giving up a writer that has not failed leaves everything with the sink. -/
theorem perform_intoSink (h : w.WF) (hnone : w.fault = none) :
    Act.Returns (perform (.intoSink : Op ν) (.writing w)) sh fun (outcome, st) _ =>
      outcome = .returned ∧ ∃ k, st = .ended k ∧ kept k = w.holds := by
  refine (perform_meets_of_readFrom .intoSink h fun s hs => by cases hs).imp ?_
  rintro ⟨outcome, st⟩ sh' hp
  cases hp with
  | refused hf he =>
    rw [none_of_latches hf.latches hf.sends hnone] at he
    cases he
  | @returned _ w' hf hnone' =>
    refine ⟨rfl, w'.sink, rfl, ?_⟩
    rw [← hf.holds_eq, holds, hf.queued_eq_nil hnone', List.append_nil]

/-- The entries of a run that has written the pieces in full and given the writer up: the
sink keeps what it has kept `before`, and then the pieces. -/
def WroteOut (before : Bytes) (pieces : List Piece)
    (entries : List (Entry (Op ν) (Outcome ν) (Stage κ))) (k : κ) : Prop :=
  ∃ written, entries = written ++ [⟨.intoSink, .returned, .ended k⟩] ∧
    written.map Entry.outcome = pieces.map Piece.accepted ∧
    kept k = before ++ pieces.flatMap Piece.content

/-- **Everything is accepted, and arrives.**  By induction on the pieces. -/
theorem writeAll_returns (pieces : List Piece) (h : w.WF) (hnone : w.fault = none) :
    Act.Returns (Act.performAll perform (pieces.map Piece.op ++ [.intoSink] : List (Op ν))
      (.writing w)) sh fun entries _ => ∃ k, WroteOut w.holds pieces entries k := by
  induction pieces generalizing w sh with
  | nil =>
    refine Act.meets_bind.mpr ((perform_intoSink h hnone).imp ?_)
    rintro ⟨outcome, st⟩ sh' ⟨rfl, k, rfl, hkept⟩
    exact ⟨k, [], rfl, rfl, by rw [hkept]; exact (List.append_nil _).symm⟩
  | cons p pieces ih =>
    refine Act.meets_bind.mpr ((perform_piece p h hnone).imp ?_)
    rintro ⟨outcome, st⟩ sh' ⟨rfl, w', rfl, hwf, hnone', hholds⟩
    refine Act.meets_bind.mpr ((ih hwf hnone').imp ?_)
    rintro entries sh'' ⟨k, written, rfl, houtcomes, hkept⟩
    refine ⟨k, ⟨p.op, p.accepted, .writing w'⟩ :: written, rfl,
      congrArg (p.accepted :: ·) houtcomes, ?_⟩
    rw [hkept, hholds, List.flatMap_cons, List.append_assoc]

end Writer

end BufferedStream
