import BufferedStream.Proofs.Writer.Pass

/-!
# Sinks that note their calls

What a writer asks of its sink, and which of these calls failed, is told by a sink
that notes every call made on it (`Watched`).

* `Call.failure` — why a write failed, if it did: the error it reported, or that
  it took fewer bytes than it was offered.
* `firstFailure` — the first failure among the writes of a row of calls.
* `Watched.readFrom_meets` — what is noted of a bulk intake.
-/

namespace BufferedStream

open Keeping (kept)

/-- Why a call on a sink was a write that failed, if it was one. -/
def Call.failure : Call → Option Error
  | .write offered count fault => Writer.shortfall offered ⟨count, fault⟩
  | _ => none

/-- The first failure among the writes of a row of calls. -/
def firstFailure (cs : List Call) : Option Error := cs.findSome? Call.failure

@[simp] theorem firstFailure_append (cs ds : List Call) :
    firstFailure (cs ++ ds) = (firstFailure cs).or (firstFailure ds) :=
  List.findSome?_append

/-- A write as a call. -/
def Send.call (s : Send) : Call := .write s.offered s.receipt.count s.receipt.fault

theorem firstFailure_single (b : Bytes) (receipt : Receipt) :
    firstFailure [Send.call ⟨b, receipt⟩] = Writer.shortfall b receipt := by
  simp only [firstFailure, List.findSome?_cons, List.findSome?_nil, Send.call, Call.failure]
  cases Writer.shortfall b receipt <;> rfl

/-- A sink with a record of the calls made on it. -/
structure Watched (κ : Type) where
  sink : κ
  calls : List Call := []

namespace Watched

variable {κ : Type} {H : Halt → Prop}

/-- A sink on which no call has been made yet. -/
def start (k : κ) : Watched κ := { sink := k }

instance [BulkSink κ] : BulkSink (Watched κ) where
  write t b := do
    let (receipt, sink) ← ByteSink.write t.sink b
    return (receipt, ⟨sink, t.calls ++ [Send.call ⟨b, receipt⟩]⟩)
  readFrom t s := do
    let (receipt, sink, s) ← BulkSink.readFrom t.sink s
    return (receipt, ⟨sink, t.calls ++ [.readFrom receipt]⟩, s)

instance [Keeping κ] : Keeping (Watched κ) := ⟨fun t => kept t.sink⟩

instance [BulkSink κ] [Keeping κ] [HonestSink H κ] : HonestSink H (Watched κ) where
  write_honest t b sh := by
    refine Act.meets_bind.mpr ((HonestSink.write_honest t.sink b sh).imp ?_)
    intro a sh' ha
    exact ha

variable [BulkSink κ]

/-- A write on a watched sink is noted. -/
theorem calls_of_writes {t t' : Watched κ} {b : Bytes} {receipt : Receipt}
    (h : ByteSink.Writes t b receipt t') : t'.calls = t.calls ++ [Send.call ⟨b, receipt⟩] := by
  obtain ⟨sh, sh', h⟩ := h
  have hm : Act.Meets (fun _ => True) (ByteSink.write t b) sh fun (receipt, t') _ =>
      t'.calls = t.calls ++ [Send.call ⟨b, receipt⟩] := by
    refine Act.meets_bind.mpr ?_
    unfold Act.Meets
    split
    · rfl
    · trivial
  exact hm.of_ok h

/-- By induction on the writes: all of them are noted. -/
theorem calls_of_sends {t t' : Watched κ} {ss : List Send} (h : Sends t ss t') :
    t'.calls = t.calls ++ ss.map Send.call := by
  induction h with
  | nil t => simp
  | cons hw _ ih => rw [ih, calls_of_writes hw, List.append_assoc]; rfl

/-- A bulk intake is noted, with what the sink answered. -/
theorem readFrom_meets {σ : Type} [ByteSource σ] [HonestSource H σ] [Keeping κ]
    [HonestBulkSink H κ] (t : Watched κ) (s : σ) (sh : Shared) :
    Act.Meets H (BulkSink.readFrom t s) sh fun (receipt, t', s') _ =>
      t'.calls = t.calls ++ [.readFrom receipt] ∧
        match receipt with
        | none => t'.sink = t.sink ∧ s' = s
        | some receipt => ∃ ds, Calls s ds s' ∧ receipt.count = (drawn ds).length := by
  refine Act.meets_bind.mpr ((HonestBulkSink.readFrom_honest t.sink s sh).imp ?_)
  rintro ⟨receipt, k, s'⟩ sh' hbulk
  refine ⟨rfl, ?_⟩
  cases receipt with
  | none => exact hbulk
  | some receipt =>
    obtain ⟨ds, hcalls, -, hcount⟩ := hbulk
    exact ⟨ds, hcalls, hcount⟩

end Watched

end BufferedStream
