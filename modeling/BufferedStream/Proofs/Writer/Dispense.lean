import BufferedStream.Proofs.Stack.Layer
import BufferedStream.Proofs.Writer.Acceptance

/-!
# Drawing a source that does not mind the room

What many a source brings does not depend on the room it is offered, as long as there is some:
it is drawn up to its first error or the first call that hands out nothing.  Then a memory sink,
which draws it in chunks of its own, and a writer, which offers the room left in its buffer, both
get all of it.

* `Dispenses` — the states of such a source; sound layers are in them (`dispenses_layer`).
* `MemorySink.readRounds_dispensed`, `Writer.drawRounds_dispensed` — both loops get all of it.
* `Receptive` — a sink that takes everything and draws all of a source, or leaves it to others.
* `Writer.readFrom_dispensed` — a writer over such a sink draws all of a source.
-/

namespace BufferedStream

open Keeping (kept)

namespace Script

/-- The error that a transfer reports; the end of the stream is none. -/
def unlessEof : Option Error → Option Error
  | some .eof => none
  | fault => fault

theorem unlessEof_of_ne {fault : Option Error} (h : fault ≠ some .eof) :
    unlessEof fault = fault := by
  unfold unlessEof
  split
  · exact absurd rfl h
  · rfl

/-- A call ends the drawing: it hands out nothing, or reports an error. -/
def Source.Ends (g : Reading) : Prop := g.count = 0 ∨ g.fault.isSome = true

end Script

open Script (unlessEof)
open Script.Source (Ends)

/-! ## Sources -/

/-- The source is in states of which `P` tells the bytes that it will bring and the error that
ends them, if one does, and after the last call in those of `Q`.  A call with room ends the
drawing and brings all of them, or brings some of them and leaves the rest. -/
def Dispenses {σ : Type} [ByteSource σ] (P : σ → Bytes → Option Error → Prop) (Q : σ → Prop) :
    Prop :=
  ∀ {s s' : σ} {b : Bytes} {fault : Option Error} {n : Nat} {g : Reading}, P s b fault →
    ByteSource.Reads s n g s' → 0 < n →
      (Ends g ∧ b = g.data ∧ fault = g.fault ∧ Q s') ∨
        (¬ Ends g ∧ ∃ rest, b = g.data ++ rest ∧ P s' rest fault)

/-- A layer is drawn up to the end. -/
def Layer.Left {σ : Type} [ByteSource σ] [Layer σ] (s : σ) (b : Bytes) (fault : Option Error) :
    Prop :=
  Layer.Sound s ∧ Layer.remaining s = b ∧ fault = some .eof

/-- A sound layer brings what remains of it. -/
theorem dispenses_layer {σ : Type} [ByteSource σ] [Layer σ] :
    Dispenses (Layer.Left (σ := σ)) fun s => Layer.Sound s ∧ Layer.remaining s = [] := by
  rintro s s' b fault n g ⟨hs, rfl, rfl⟩ hreads hpos
  obtain ⟨hs', hremaining⟩ := Layer.remaining_of_reads hs hreads
  obtain ⟨hlast, hbrings⟩ := Layer.ends_of_reads hs hreads hpos
  rcases Layer.fault_of_reads hs hreads with hnone | heof
  · right
    have hne : g.data ≠ [] := by
      intro hdata
      rw [hbrings hdata] at hnone
      cases hnone
    refine ⟨?_, Layer.remaining s', hremaining, hs', rfl, rfl⟩
    rintro (h0 | hsome)
    · rw [(HonestSource.of_reads (H := fun _ => False) hreads).1] at h0
      exact hne (List.eq_nil_of_length_eq_zero h0)
    · rw [hnone] at hsome
      cases hsome
  · left
    have hend := hlast heof
    rw [hend, List.append_nil] at hremaining
    exact ⟨.inr (by rw [heof]; rfl), hremaining, heof.symm, hs', hend⟩

section Drawing

variable {σ : Type} [ByteSource σ] [HonestSource (fun _ => False) σ]
  {P : σ → Bytes → Option Error → Prop} {Q : σ → Prop} {s : σ} {b : Bytes}
  {fault : Option Error} {sh : Shared}

/-! ## In bulk -/

/-- By induction on the rounds: a memory sink that has the patience for it draws the source,
and keeps what that brings. -/
theorem MemorySink.readRounds_dispensed (hP : Dispenses P Q) (rounds total : Nat)
    (m : MemorySink) (h : P s b fault) (hrounds : b.length < rounds) :
    Act.Returns (m.readRounds rounds total s) sh fun (receipt, m', s') _ =>
      receipt = some ⟨total + b.length, unlessEof fault⟩ ∧ m'.data = m.data ++ b ∧ Q s' := by
  induction rounds generalizing total m s b sh with
  | zero => exact absurd hrounds (Nat.not_lt_zero _)
  | succ rounds ih =>
    unfold readRounds
    refine Act.meets_bind.mpr ((meets_read (H := fun _ => False) s _ sh).imp ?_)
    rintro ⟨g, s₁⟩ sh₁ ⟨hreads, hcount, hle⟩
    refine Act.meets_bind.mpr ((Act.meets_require (decide_eq_true hle)).mpr ?_)
    have hdata : g.bytes = g.data := Grant.bytesIn_eq_data hcount []
    dsimp only
    rw [hdata]
    rcases hP h hreads (by decide) with ⟨hends, rfl, rfl, hs₁⟩ | ⟨hgoes, rest, rfl, hs₁⟩
    · rw [← hcount]
      split
      · rename_i heof
        rw [heof]
        exact ⟨rfl, rfl, hs₁⟩
      · rename_i e hne he
        rw [he, Script.unlessEof_of_ne (by simpa using hne)]
        exact ⟨rfl, rfl, hs₁⟩
      · rename_i hnone
        rw [if_pos (hends.resolve_right (by simp [hnone])), hnone]
        exact ⟨rfl, rfl, hs₁⟩
    · obtain ⟨hne, hnone⟩ := not_or.mp hgoes
      rw [Option.not_isSome_iff_eq_none] at hnone
      rw [List.length_append] at hrounds
      rw [List.length_append, ← hcount, ← Nat.add_assoc, ← List.append_assoc, hnone, if_neg hne]
      exact ih _ _ hs₁ (by omega)

/-! ## By turns -/

namespace Writer

variable {κ : Type} [BulkSink κ] [Keeping κ] {w : Writer κ}

omit [ByteSource σ] [HonestSource (fun _ => False) σ] in
/-- What the source reported last is passed on, unless it is the end of the stream. -/
theorem Concludes.reported {w' : Writer κ} {fault fault' : Option Error} {ss : List Send}
    (h : w.Concludes fault ss fault' w') (hnone : w'.fault = none) : fault' = unlessEof fault := by
  cases h with
  | eof => exact hnone
  | other hne => exact (Script.unlessEof_of_ne hne).symm

variable [Accepting κ]

/-- By induction on the rounds: a writer that has the patience for it draws the source, and
answers for what that brings. -/
theorem drawRounds_dispensed (hP : Dispenses P Q) (rounds total : Nat) (hw : w.WF)
    (hnone : w.fault = none) (h : P s b fault) (hrounds : b.length < rounds) :
    Act.Returns (w.drawRounds rounds total s) sh fun (receipt, w', s') _ =>
      receipt = ⟨total + b.length, unlessEof fault⟩ ∧ w'.fault = none ∧
        w'.holds = w.holds ++ b ∧ Q s' := by
  induction rounds generalizing total w s b sh with
  | zero => exact absurd hrounds (Nat.not_lt_zero _)
  | succ rounds ih =>
    rw [drawRounds]
    refine Act.meets_bind.mpr ((makeRoom_meets 1 w).imp ?_)
    rintro w₁ sh₁ ⟨ss, hm⟩
    have hnone₁ := none_of_latches hm.latches hm.sends hnone
    have hwf₁ := hm.wf hw
    have hpos := hm.available_pos hw hnone₁
    dsimp only
    rw [hnone₁]
    refine Act.meets_bind.mpr ((draw_meets w₁ s).imp ?_)
    rintro ⟨g, w₂, s₁⟩ sh₂ hf
    have hnone₂ := hf.fault_eq.trans hnone₁
    have hholds : w₂.holds = w.holds ++ g.data := by rw [hf.holds_eq, hm.holds_eq]
    dsimp only
    rcases hP h hf.reads hpos with ⟨hends, rfl, rfl, hs₁⟩ | ⟨hgoes, rest, rfl, hs₁⟩
    · rw [if_pos (by simpa [Ends] using hends), ← hf.count_eq, ← hholds]
      refine Act.meets_bind.mpr ((concludeTransfer_meets _ _ w₂).imp ?_)
      rintro ⟨receipt, w₃⟩ sh₃ ⟨ts, fault, hc, rfl⟩
      have hnone₃ := none_of_latches hc.latches hc.sends hnone₂
      exact ⟨by rw [hc.reported hnone₃], hnone₃, hc.holds_eq, hs₁⟩
    · rw [if_neg (by simpa [Ends] using hgoes), List.length_append, ← hf.count_eq,
        ← Nat.add_assoc, ← List.append_assoc, ← hholds]
      refine ih _ (hf.wf hwf₁) hnone₂ hs₁ ?_
      have hpos : g.count ≠ 0 := fun h => hgoes (.inl h)
      rw [List.length_append, ← hf.count_eq] at hrounds
      omega

end Writer

end Drawing

/-! ## Sinks that draw a source, or leave it to others -/

namespace Writer

instance {κ : Type} [ByteSink κ] [Keeping κ] [Accepting κ] : Accepting (Unbulked κ) where
  write_accepts u b sh := by
    refine Act.meets_bind.mpr ((Accepting.write_accepts u.sink b sh).imp ?_)
    rintro ⟨receipt, k⟩ sh' h
    exact h

/-- The sink leaves the drawing of sources to others. -/
def Declines {κ : Type} [BulkSink κ] (k : κ) : Prop :=
  ∀ {σ : Type} [ByteSource σ] (s : σ), BulkSink.readFrom k s = pure (none, k, s)

end Writer

/-- The sink draws all that a source brings, if it has the patience for it. -/
def DrawsAll {κ : Type} [BulkSink κ] [Keeping κ] (k : κ) : Prop :=
  ∀ {σ : Type} [ByteSource σ] [HonestSource (fun _ => False) σ]
    {P : σ → Bytes → Option Error → Prop} {Q : σ → Prop} {s : σ} {b : Bytes}
    {fault : Option Error} {sh : Shared}, Dispenses P Q → P s b fault → b.length < sh.patience →
      Act.Returns (BulkSink.readFrom k s) sh fun (receipt, k', s') _ =>
        receipt = some ⟨b.length, unlessEof fault⟩ ∧ kept k' = kept k ++ b ∧ Q s'

/-- A sink that takes everything.  It draws all of a source itself, or leaves that to others. -/
class Receptive (κ : Type) [BulkSink κ] [Keeping κ] : Prop extends Accepting κ where
  draws_or_declines (k : κ) : DrawsAll k ∨ Writer.Declines k

theorem MemorySink.drawsAll (m : MemorySink) : DrawsAll m := by
  intro σ _ _ P Q s b fault sh hP h hpatience
  show Act.Returns (m.readFrom s) sh _
  refine Act.meets_bind.mpr (Act.meets_patience.mpr
    ((m.readRounds_dispensed hP _ 0 h hpatience).imp ?_))
  rintro ⟨receipt, m', s'⟩ sh' ⟨rfl, hdata, hs'⟩
  exact ⟨by rw [Nat.zero_add], hdata, hs'⟩

instance : Receptive MemorySink := ⟨fun m => .inl m.drawsAll⟩

instance {κ : Type} [ByteSink κ] [Keeping κ] [Accepting κ] : Receptive (Unbulked κ) :=
  ⟨fun _ => .inr fun _ => rfl⟩

namespace Writer

variable {κ σ : Type} [BulkSink κ] [Keeping κ] {w : Writer κ} [ByteSource σ]
  [HonestSource (fun _ => False) σ] {P : σ → Bytes → Option Error → Prop} {Q : σ → Prop} {s : σ}
  {b : Bytes} {fault : Option Error} {sh : Shared}

/-- With nothing queued the sink draws the source, if it does. -/
theorem readFrom_in_bulk (hP : Dispenses P Q) (hnone : w.fault = none) (hqueued : w.queued = [])
    (hdraws : DrawsAll w.sink) (h : P s b fault) (hpatience : b.length < sh.patience) :
    Act.Returns (w.readFrom s) sh fun (receipt, w', s') _ =>
      receipt = ⟨b.length, unlessEof fault⟩ ∧ w'.fault = none ∧ w'.holds = w.holds ++ b ∧ Q s' := by
  unfold readFrom
  rw [if_neg (by simp [hnone]), if_pos hqueued]
  refine Act.meets_bind.mpr ((hdraws hP h hpatience).imp ?_)
  rintro ⟨receipt, k, s'⟩ sh' ⟨rfl, hkept, hs'⟩
  refine ⟨rfl, hnone, ?_, hs'⟩
  show kept k ++ w.queued = kept w.sink ++ w.queued ++ b
  rw [hkept, hqueued, List.append_nil, List.append_nil]

variable [Accepting κ]

/-- With bytes queued, or over a sink that leaves it to others, the writer draws the source by
turns. -/
theorem readFrom_by_turns (hP : Dispenses P Q) (hw : w.WF) (hnone : w.fault = none)
    (hturns : w.queued ≠ [] ∨ Declines w.sink) (h : P s b fault)
    (hpatience : b.length < sh.patience) :
    Act.Returns (w.readFrom s) sh fun (receipt, w', s') _ =>
      receipt = ⟨b.length, unlessEof fault⟩ ∧ w'.fault = none ∧ w'.holds = w.holds ++ b ∧ Q s' := by
  have hrounds : Act.Returns (do w.drawRounds (← Act.patience) 0 s) sh
      fun (receipt, w', s') _ => receipt = ⟨b.length, unlessEof fault⟩ ∧ w'.fault = none ∧
        w'.holds = w.holds ++ b ∧ Q s' := by
    refine Act.meets_bind.mpr (Act.meets_patience.mpr
      ((drawRounds_dispensed hP _ 0 hw hnone h hpatience).imp ?_))
    rintro ⟨receipt, w', s'⟩ sh' ⟨rfl, hnone', hholds, hs'⟩
    exact ⟨by rw [Nat.zero_add], hnone', hholds, hs'⟩
  unfold readFrom
  rw [if_neg (by simp [hnone])]
  split
  · rename_i hqueued
    rw [hturns.resolve_left fun hne => hne hqueued]
    exact hrounds
  · exact hrounds

omit [Accepting κ] in
/-- **A writer draws all that a source brings**, whoever of the two does it. -/
theorem readFrom_dispensed [Receptive κ] (hP : Dispenses P Q) (hw : w.WF) (hnone : w.fault = none)
    (h : P s b fault) (hpatience : b.length < sh.patience) :
    Act.Returns (w.readFrom s) sh fun (receipt, w', s') _ =>
      receipt = ⟨b.length, unlessEof fault⟩ ∧ w'.fault = none ∧ w'.holds = w.holds ++ b ∧ Q s' := by
  by_cases hqueued : w.queued = []
  · rcases Receptive.draws_or_declines w.sink with hdraws | hdeclines
    · exact readFrom_in_bulk hP hnone hqueued hdraws h hpatience
    · exact readFrom_by_turns hP hw hnone (.inr hdeclines) h hpatience
  · exact readFrom_by_turns hP hw hnone (.inl hqueued) h hpatience

end Writer

end BufferedStream
