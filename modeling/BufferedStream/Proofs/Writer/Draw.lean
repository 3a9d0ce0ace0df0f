import BufferedStream.Proofs.Writer.Pass
import BufferedStream.Writer.Transfer

/-!
# What drawing a source does

A sink that can draws the source itself; otherwise the source fills the room of
the buffer, and the buffer is passed on whenever it is full.

* `Writer.Fetches`, `Writer.Draws` — one call on the source, and calls until the
  source ends or the sink fails.
* `Writer.readFrom_meets` — drawing a source; `Writer.ReadsFrom.holds_eq` says that
  just the bytes handed out are accepted.
-/

namespace BufferedStream

open Keeping (kept)

namespace Writer

variable {σ κ : Type} [ByteSource σ] {H : Halt → Prop} {sh : Shared}

/-! ## One call on the source -/

/-- One call on the source, which is offered the room left. -/
inductive Fetches (w : Writer κ) (s : σ) : Reading → Writer κ → σ → Prop
  | fetched {g : Reading} {s' : σ} {length : Nat} {spare : Bytes}
      (hreads : ByteSource.Reads s w.available g s') (hcount : g.count = g.data.length)
      (hle : g.count ≤ w.available) :
      Fetches w s g ((w.withBlock (some length) spare).enqueue g.data) s'

theorem draw_meets [HonestSource H σ] (w : Writer κ) (s : σ) :
    Act.Meets H (w.draw s) sh fun (g, w', s') _ => w.Fetches s g w' s' := by
  refine Act.meets_bind.mpr ((acquire_meets w).imp ?_)
  rintro w₁ sh₁ ⟨length, spare, rfl⟩
  refine Act.meets_bind.mpr ((meets_read s _ sh₁).imp ?_)
  rintro ⟨g, s'⟩ sh₂ ⟨hreads, hcount, hle⟩
  refine Act.meets_bind.mpr ((Act.meets_require (decide_eq_true hle)).mpr ?_)
  dsimp only
  rw [Act.meets_pure, Grant.bytesIn_eq_data hcount, hcount]
  have hfetched : w.Fetches s g ((w.withBlock (some length) (g.fillIn spare)).enqueue g.data) s' :=
    .fetched hreads hcount hle
  exact hfetched

namespace Fetches

variable {w w' : Writer κ} {s s' : σ} {g : Reading}

theorem reads (h : w.Fetches s g w' s') : ByteSource.Reads s w.available g s' := by
  cases h with
  | fetched hreads => exact hreads

theorem count_eq (h : w.Fetches s g w' s') : g.count = g.data.length := by
  cases h with
  | fetched _ hcount => exact hcount

theorem sink_eq (h : w.Fetches s g w' s') : w'.sink = w.sink := by cases h; rfl

theorem fault_eq (h : w.Fetches s g w' s') : w'.fault = w.fault := by cases h; rfl

theorem wf (h : w.Fetches s g w' s') (hw : w.WF) : w'.WF := by
  cases h with
  | fetched _ hcount hle => exact hw.enqueue (hcount ▸ hle) _ _

theorem holds_eq [Keeping κ] (h : w.Fetches s g w' s') : w'.holds = w.holds ++ g.data := by
  cases h with
  | fetched => exact w.holds_enqueue ..

end Fetches

/-! ## Drawing by turns -/

section Rounds

variable [ByteSink κ] [Keeping κ]

/-- The end of a transfer, by what the source reported last. -/
inductive Concludes (w : Writer κ) : Option Error → List Send → Option Error → Writer κ → Prop
  | eof {ss : List Send} {w' : Writer κ} (hm : w.MakesRoom 1 ss w') :
      Concludes w (some .eof) ss w'.fault w'
  | other {fault : Option Error} (h : fault ≠ some .eof) : Concludes w fault [] fault w

theorem concludeTransfer_meets [HonestSink H κ] (total : Nat) (fault : Option Error)
    (w : Writer κ) :
    Act.Meets H (w.concludeTransfer total fault) sh fun (receipt, w') _ => ∃ ss fault',
      w.Concludes fault ss fault' w' ∧ receipt = ⟨total, fault'⟩ := by
  unfold concludeTransfer
  split
  · refine Act.meets_bind.mpr ((makeRoom_meets 1 w).imp ?_)
    rintro w' sh' ⟨ss, hm⟩
    exact ⟨ss, _, .eof hm, rfl⟩
  · rename_i hne
    exact ⟨[], _, .other fun h => hne h, rfl⟩

namespace Concludes

variable {w w' : Writer κ} {fault fault' : Option Error} {ss : List Send}

theorem sends (h : w.Concludes fault ss fault' w') : Sends w.sink ss w'.sink := by
  cases h with
  | eof hm => exact hm.sends
  | other => exact .nil _

theorem wf (h : w.Concludes fault ss fault' w') (hw : w.WF) : w'.WF := by
  cases h with
  | eof hm => exact hm.wf hw
  | other => exact hw

theorem holds_eq (h : w.Concludes fault ss fault' w') : w'.holds = w.holds := by
  cases h with
  | eof hm => exact hm.holds_eq
  | other => rfl

end Concludes

/-- Calls on the source, with the buffer passed on whenever it is full, until the
source ends or the sink fails. -/
inductive Draws : Writer κ → σ → List Send → List Draw → Receipt → Writer κ → σ → Prop
  | failed {w w₁ : Writer κ} {s : σ} {ss : List Send} (hm : w.MakesRoom 1 ss w₁)
      (hsome : w₁.fault.isSome = true) : Draws w s ss [] ⟨0, w₁.fault⟩ w₁ s
  | last {w w₁ w₂ w₃ : Writer κ} {s s₁ : σ} {ss ts : List Send} {g : Reading}
      {fault : Option Error} (hm : w.MakesRoom 1 ss w₁) (hnone : w₁.fault = none)
      (hf : w₁.Fetches s g w₂ s₁) (hends : g.count = 0 ∨ g.fault.isSome = true)
      (hc : w₂.Concludes g.fault ts fault w₃) :
      Draws w s (ss ++ ts) [⟨w₁.available, g⟩] ⟨g.count, fault⟩ w₃ s₁
  | more {w w₁ w₂ w₃ : Writer κ} {s s₁ s₂ : σ} {ss ts : List Send} {ds : List Draw} {g : Reading}
      {receipt : Receipt} (hm : w.MakesRoom 1 ss w₁) (hnone : w₁.fault = none)
      (hf : w₁.Fetches s g w₂ s₁) (hgoes : ¬ (g.count = 0 ∨ g.fault.isSome = true))
      (hrest : Draws w₂ s₁ ts ds receipt w₃ s₂) :
      Draws w s (ss ++ ts) (⟨w₁.available, g⟩ :: ds)
        ⟨g.count + receipt.count, receipt.fault⟩ w₃ s₂

/-- By induction on the rounds: what was drawn before is counted in front. -/
theorem drawRounds_meets [HonestSource H σ] [HonestSink H κ] (hH : H .exhausted)
    (rounds total : Nat) (w : Writer κ) (s : σ) :
    Act.Meets H (w.drawRounds rounds total s) sh fun (receipt, w', s') _ => ∃ ss ds r,
      Draws w s ss ds r w' s' ∧ receipt = ⟨total + r.count, r.fault⟩ := by
  induction rounds generalizing total w s sh with
  | zero => exact hH
  | succ rounds ih =>
    rw [drawRounds]
    refine Act.meets_bind.mpr ((makeRoom_meets 1 w).imp ?_)
    rintro w₁ sh₁ ⟨ss, hm⟩
    dsimp only
    split
    · rename_i hsome
      exact ⟨ss, [], _, .failed hm hsome, rfl⟩
    · rename_i hnone
      rw [Option.not_isSome_iff_eq_none] at hnone
      refine Act.meets_bind.mpr ((draw_meets w₁ s).imp ?_)
      rintro ⟨g, w₂, s₁⟩ sh₂ hf
      dsimp only
      split
      · rename_i hends
        simp only [Bool.or_eq_true, decide_eq_true_eq] at hends
        refine Act.meets_bind.mpr ((concludeTransfer_meets _ _ w₂).imp ?_)
        rintro ⟨receipt, w₃⟩ sh₃ ⟨ts, fault, hc, rfl⟩
        exact ⟨_, _, _, .last hm hnone hf hends hc, rfl⟩
      · rename_i hgoes
        simp only [Bool.or_eq_true, decide_eq_true_eq] at hgoes
        refine (ih (total + g.count) w₂ s₁).imp ?_
        rintro ⟨receipt, w₃, s₂⟩ sh₃ ⟨ts, ds, r, hrest, rfl⟩
        exact ⟨_, _, _, .more hm hnone hf hgoes hrest, by rw [Nat.add_assoc]⟩

namespace Draws

variable {w w' : Writer κ} {s s' : σ} {ss : List Send} {ds : List Draw} {receipt : Receipt}

theorem calls (h : Draws w s ss ds receipt w' s') : Calls s ds s' := by
  induction h with
  | failed => exact .nil _
  | last _ _ hf => exact .single hf.reads
  | more _ _ hf _ _ ih => exact .cons hf.reads ih

theorem sends (h : Draws w s ss ds receipt w' s') : Sends w.sink ss w'.sink := by
  induction h with
  | failed hm => exact hm.sends
  | last hm _ hf _ hc => exact hm.sends.append (hf.sink_eq ▸ hc.sends)
  | more hm _ hf _ _ ih => exact hm.sends.append (hf.sink_eq ▸ ih)

theorem wf (h : Draws w s ss ds receipt w' s') (hw : w.WF) : w'.WF := by
  induction h with
  | failed hm => exact hm.wf hw
  | last hm _ hf _ hc => exact hc.wf (hf.wf (hm.wf hw))
  | more hm _ hf _ _ ih => exact ih (hf.wf (hm.wf hw))

theorem count_eq (h : Draws w s ss ds receipt w' s') : receipt.count = (drawn ds).length := by
  induction h with
  | failed => rfl
  | last _ _ hf => simp [hf.count_eq]
  | more _ _ hf _ _ ih => simp [hf.count_eq, ih]

theorem holds_eq (h : Draws w s ss ds receipt w' s') : w'.holds = w.holds ++ drawn ds := by
  induction h with
  | failed hm => rw [hm.holds_eq, drawn_nil, List.append_nil]
  | last hm _ hf _ hc =>
    rw [hc.holds_eq, hf.holds_eq, hm.holds_eq, drawn_cons, drawn_nil, List.append_nil]
  | more hm _ hf _ _ ih => rw [ih, hf.holds_eq, hm.holds_eq, drawn_cons, List.append_assoc]

end Draws

end Rounds

/-! ## Drawing a source -/

variable [BulkSink κ] [Keeping κ]

/-- The ways of drawing a source. -/
inductive ReadsFrom (w : Writer κ) (s : σ) : List Draw → Receipt → Writer κ → σ → Prop
  | failed {e : Error} (he : w.fault = some e) : ReadsFrom w s [] ⟨0, some e⟩ w s
  /-- With nothing queued, a sink that can draws the source itself. -/
  | bulk {ds : List Draw} {receipt : Receipt} {k : κ} {s' : σ} (hnone : w.fault = none)
      (hqueued : w.queued = []) (hcalls : Calls s ds s')
      (hkept : kept k = kept w.sink ++ drawn ds) (hcount : receipt.count = (drawn ds).length) :
      ReadsFrom w s ds receipt { w with sink := k } s'
  | byTurns {ss : List Send} {ds : List Draw} {receipt : Receipt} {w' : Writer κ} {s' : σ}
      (hnone : w.fault = none) (hd : Draws w s ss ds receipt w' s') :
      ReadsFrom w s ds receipt w' s'

theorem readFrom_meets [HonestSource H σ] [HonestSink H κ] [HonestBulkSink H κ]
    (hH : H .exhausted) (w : Writer κ) (s : σ) :
    Act.Meets H (w.readFrom s) sh fun (receipt, w', s') _ => ∃ ds,
      w.ReadsFrom s ds receipt w' s' := by
  have hturns : w.fault = none → ∀ sh, Act.Meets H (do w.drawRounds (← Act.patience) 0 s) sh
      fun (receipt, w', s') _ => ∃ ds, w.ReadsFrom s ds receipt w' s' := by
    intro hnone sh
    refine Act.meets_bind.mpr (Act.meets_patience.mpr ((drawRounds_meets hH _ 0 w s).imp ?_))
    rintro ⟨receipt, w', s'⟩ sh' ⟨ss, ds, r, hd, rfl⟩
    rw [Nat.zero_add]
    exact ⟨ds, .byTurns hnone hd⟩
  unfold readFrom
  split
  · rename_i hsome
    obtain ⟨e, he⟩ := Option.isSome_iff_exists.mp hsome
    rw [Act.meets_pure, he]
    exact ⟨[], .failed he⟩
  · rename_i hnone
    rw [Option.not_isSome_iff_eq_none] at hnone
    split
    · rename_i hqueued
      refine Act.meets_bind.mpr ((HonestBulkSink.readFrom_honest w.sink s sh).imp ?_)
      rintro ⟨receipt, k, s'⟩ sh' hbulk
      cases receipt with
      | none =>
        obtain ⟨rfl, rfl⟩ := hbulk
        exact hturns hnone sh'
      | some receipt =>
        obtain ⟨ds, hcalls, hkept, hcount⟩ := hbulk
        exact ⟨ds, .bulk hnone hqueued hcalls hkept hcount⟩
    · exact hturns hnone sh

namespace ReadsFrom

variable {w w' : Writer κ} {s s' : σ} {ds : List Draw} {receipt : Receipt}

theorem calls (h : w.ReadsFrom s ds receipt w' s') : Calls s ds s' := by
  cases h with
  | failed => exact .nil _
  | bulk _ _ hcalls => exact hcalls
  | byTurns _ hd => exact hd.calls

theorem wf (h : w.ReadsFrom s ds receipt w' s') (hw : w.WF) : w'.WF := by
  cases h with
  | failed => exact hw
  | bulk => exact ⟨hw.size_pos, hw.fits, hw.queued_of_held⟩
  | byTurns _ hd => exact hd.wf hw

/-- The bytes handed out are counted. -/
theorem count_eq (h : w.ReadsFrom s ds receipt w' s') :
    receipt.count = (drawn ds).length := by
  cases h with
  | failed => rfl
  | bulk _ _ _ _ hcount => exact hcount
  | byTurns _ hd => exact hd.count_eq

/-- **Drawing accepts just the bytes that the source hands out.** -/
theorem holds_eq (h : w.ReadsFrom s ds receipt w' s') : w'.holds = w.holds ++ drawn ds := by
  cases h with
  | failed => rw [drawn_nil, List.append_nil]
  | bulk _ hqueued _ hkept =>
    rw [holds, holds, hkept, hqueued, List.append_nil, List.append_nil]
  | byTurns _ hd => exact hd.holds_eq

end ReadsFrom

end Writer

end BufferedStream
