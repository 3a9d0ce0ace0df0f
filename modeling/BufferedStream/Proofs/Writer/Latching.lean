import BufferedStream.Proofs.Watched
import BufferedStream.Proofs.Writer.Operation

/-!
# What a writer latches

Every write of a writer on its sink is made while nothing is latched, and latches
its failure.  So of all the writes that an operation makes only the last may have
failed, and what is latched afterwards is the first failure.

* `Latches` — how a row of calls changes what is latched.
* `Writer.Writes.latches`, `Writer.Draws.latches`, … — every operation latches so.
* `Writer.Writes.refused`, … — an operation that finds an error latched leaves the
  writer as it was.
-/

namespace BufferedStream

/-- A row of calls, made while `fault` was latched, leaves `fault'` latched: none is
made after an error, and the failure of the last is latched. -/
structure Latches (fault : Option Error) (cs : List Call) (fault' : Option Error) : Prop where
  fault_eq : fault' = fault.or (firstFailure cs)
  quiet : cs ≠ [] → fault = none ∧ firstFailure cs.dropLast = none

namespace Latches

variable {fault fault₁ fault' : Option Error} {cs ds : List Call} {e : Error}

theorem nil (fault : Option Error) : Latches fault [] fault :=
  ⟨(Option.or_none ..).symm, fun h => absurd rfl h⟩

/-- While nothing is latched, one call may be made. -/
theorem single (c : Call) : Latches none [c] (firstFailure [c]) :=
  ⟨rfl, fun _ => ⟨rfl, rfl⟩⟩

theorem append (h : Latches fault cs fault₁) (h' : Latches fault₁ ds fault') :
    Latches fault (cs ++ ds) fault' where
  fault_eq := by rw [h'.fault_eq, h.fault_eq, firstFailure_append, Option.or_assoc]
  quiet hne := by
    by_cases hds : ds = []
    · subst hds
      rw [List.append_nil] at hne ⊢
      exact h.quiet hne
    · obtain ⟨hfault₁, hquiet⟩ := h'.quiet hds
      obtain ⟨hfault, hcs⟩ := Option.or_eq_none_iff.mp (h.fault_eq.symm.trans hfault₁)
      refine ⟨hfault, ?_⟩
      rw [List.dropLast_append_of_ne_nil hds, firstFailure_append, hcs, hquiet]
      rfl

/-- What is latched stays latched. -/
theorem of_some (h : Latches fault cs fault') (he : fault = some e) : fault' = some e := by
  rw [h.fault_eq, he]
  rfl

/-- After an error no call is made. -/
theorem eq_nil (h : Latches fault cs fault') (he : fault = some e) : cs = [] := by
  refine Decidable.byContradiction fun hne => ?_
  rw [(h.quiet hne).1] at he
  cases he

end Latches

namespace Writer

variable {σ κ : Type} [ByteSource σ] {w w' : Writer κ} {ss : List Send} {e : Error}

/-- The outcome of a writer that has failed. -/
theorem outcome_of_some {α : Type} (a : α) (he : w.fault = some e) : w.outcome a = .error e := by
  rw [outcome, he]

/-- The outcome of a writer that has not failed. -/
theorem outcome_of_none {α : Type} (a : α) (hnone : w.fault = none) : w.outcome a = .ok a := by
  rw [outcome, hnone]

variable [ByteSink κ] [Keeping κ]

/-! ## Passing the queue on -/

theorem Passes.latches {b : Bytes} {receipt : Receipt} (h : w.Passes b receipt w')
    (hnone : w.fault = none) : Latches w.fault [Send.call ⟨b, receipt⟩] w'.fault := by
  rw [h.fault_eq, hnone, Option.or_none, ← firstFailure_single]
  exact .single _

theorem Flushes.latches (h : w.Flushes ss w') : Latches w.fault (ss.map Send.call) w'.fault := by
  cases h with
  | idle => exact .nil _
  | passed hnone _ hp => exact hp.latches hnone

theorem Flushes.refused (h : w.Flushes ss w') (he : w.fault = some e) : w' = w := by
  cases h with
  | idle => rfl
  | passed hnone => rw [hnone] at he; cases he

theorem MakesRoom.latches {n : Nat} (h : w.MakesRoom n ss w') :
    Latches w.fault (ss.map Send.call) w'.fault := by
  cases h with
  | enough => exact .nil _
  | flushed _ hf => exact hf.latches

theorem MakesRoom.refused {n : Nat} (h : w.MakesRoom n ss w') (he : w.fault = some e) :
    w' = w := by
  cases h with
  | enough => rfl
  | flushed _ hf => exact hf.refused he

theorem FlushesOut.latches (h : w.FlushesOut ss w') :
    Latches w.fault (ss.map Send.call) w'.fault := by
  obtain ⟨w₁, hf, hs⟩ := h
  exact hs.fault_eq ▸ hf.latches

theorem FlushesOut.refused (h : w.FlushesOut ss w') (he : w.fault = some e) :
    w'.queued = w.queued := by
  obtain ⟨w₁, hf, hs⟩ := h
  rw [hs.queued_eq, hf.refused he]

/-! ## Writing -/

theorem Round.latches {b : Bytes} {n : Nat} (h : w.Round b ss n w') (hnone : w.fault = none) :
    Latches w.fault (ss.map Send.call) w'.fault := by
  cases h with
  | direct _ hp => exact hp.latches hnone
  | topped _ hc hf => exact hc.fault_eq ▸ hf.latches

/-- By induction on the rounds, each of which is made only if those before did not
fail. -/
theorem Rounds.latches {rounds n : Nat} {b : Bytes} (h : Rounds rounds b w ss n w') :
    Latches w.fault (ss.map Send.call) w'.fault := by
  induction h with
  | done => exact .nil _
  | round _ hnone hr _ ih =>
    rw [List.map_append]
    exact (hr.latches hnone).append ih

theorem Rounds.refused {rounds n : Nat} {b : Bytes} (h : Rounds rounds b w ss n w')
    (he : w.fault = some e) : n = 0 ∧ w' = w := by
  cases h with
  | done => exact ⟨rfl, rfl⟩
  | round _ hnone => rw [hnone] at he; cases he

namespace Writes

variable {b : Bytes} {receipt : Receipt}

theorem latches (h : w.Writes b ss receipt w') : Latches w.fault (ss.map Send.call) w'.fault := by
  cases h with
  | failed hr => exact hr.latches
  | queued hr _ hc => exact hc.fault_eq ▸ hr.latches

theorem refused (h : w.Writes b ss receipt w') (he : w.fault = some e) :
    receipt = ⟨0, some e⟩ ∧ w' = w := by
  cases h with
  | failed hr he' =>
    obtain ⟨rfl, rfl⟩ := hr.refused he
    rw [he] at he'
    exact ⟨by rw [he'], rfl⟩
  | queued hr hnone =>
    obtain ⟨-, rfl⟩ := hr.refused he
    rw [hnone] at he
    cases he

theorem receipt_eq (h : w.Writes b ss receipt w') (hnone : w'.fault = none) :
    receipt = ⟨b.length, none⟩ := by
  cases h with
  | failed _ he => rw [hnone] at he; cases he
  | queued => rfl

end Writes

theorem Puts.latches {n : Nat} {b : Bytes} (h : w.Puts n b ss w') :
    Latches w.fault (ss.map Send.call) w'.fault := by
  cases h with
  | failed hm => exact hm.latches
  | queued hm => exact hm.latches

theorem Puts.refused {n : Nat} {b : Bytes} (h : w.Puts n b ss w') (he : w.fault = some e) :
    w' = w := by
  cases h with
  | failed hm => exact hm.refused he
  | queued hm hnone =>
    rw [hm.refused he, he] at hnone
    cases hnone

theorem PutsRune.latches {c : Char} (h : w.PutsRune c ss w') :
    Latches w.fault (ss.map Send.call) w'.fault := by
  cases h with
  | put _ hp => exact hp.latches
  | piecewise _ hm hw =>
    rw [List.map_append]
    exact hm.latches.append hw.latches

theorem PutsRune.refused {c : Char} (h : w.PutsRune c ss w') (he : w.fault = some e) :
    w' = w := by
  cases h with
  | put _ hp => exact hp.refused he
  | piecewise _ hm hw =>
    obtain rfl := hm.refused he
    exact (hw.refused he).2

/-! ## Drawing a source -/

theorem Concludes.latches {fault fault' : Option Error} (h : w.Concludes fault ss fault' w') :
    Latches w.fault (ss.map Send.call) w'.fault := by
  cases h with
  | eof hm => exact hm.latches
  | other => exact .nil _

theorem Concludes.reports {fault fault' : Option Error} (h : w.Concludes fault ss fault' w')
    (hnone : w.fault = none) (he : w'.fault = some e) : fault' = some e := by
  cases h with
  | eof => exact he
  | other => rw [hnone] at he; cases he

variable {s s' : σ} {ds : List Draw} {receipt : Receipt}

theorem Draws.latches (h : Draws w s ss ds receipt w' s') :
    Latches w.fault (ss.map Send.call) w'.fault := by
  induction h with
  | failed hm => exact hm.latches
  | last hm _ hf _ hc =>
    rw [List.map_append]
    exact hm.latches.append (hf.fault_eq ▸ hc.latches)
  | more hm _ hf _ _ ih =>
    rw [List.map_append]
    exact hm.latches.append (hf.fault_eq ▸ ih)

/-- By induction on the rounds: a failure of the sink ends the drawing, and is
reported. -/
theorem Draws.reports (h : Draws w s ss ds receipt w' s') (he : w'.fault = some e) :
    receipt.fault = some e := by
  induction h with
  | failed => exact he
  | last _ hnone hf _ hc => exact hc.reports (hf.fault_eq.trans hnone) he
  | more _ _ _ _ _ ih => exact ih he

end Writer

end BufferedStream
