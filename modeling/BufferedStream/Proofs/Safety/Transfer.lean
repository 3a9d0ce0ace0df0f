import BufferedStream.Proofs.Safety.Records

/-!
# A reader is emptied within bounds

Emptying a reader into a sink calls on a source and on a sink, and notices an
over-report of either.

* `Reader.drain_safe`, `Reader.writeTo_safe` — emptying is safe.
* `Reader.perform_safe`, `Reader.execute_safe` — so is every operation and every task.
* A reader over an answering source is an answering source itself, which reports no more
  than it was offered.
-/

namespace BufferedStream.Reader

open Act (Upholds)
open Guarded (Safe safe_check safe_of safe_pure safe_answer)

variable {σ κ : Type} {r : Reader σ}

/-! ## Emptying into a sink -/

section Transfer

variable [ByteSink κ] [AnsweringSink κ] {k : κ}

/-- A sink that reports more than it was offered is turned down at once. -/
theorem drain_safe [ByteSource σ] [AnsweringSource σ] (h : r.Secure)
    (hk : AnsweringSink.Sound k) :
    Safe (Checked.drain r k) (r.drain k) fun (_, r', k') => r'.Secure ∧ AnsweringSink.Sound k' := by
  unfold Checked.drain drain
  refine .ite (fun _ => safe_pure ⟨h, hk⟩) fun _ => ?_
  refine safe_check (h.inBounds.slice (lo_le_hi r) (Nat.le_refl _)) ?_
  refine safe_answer (AnsweringSink.write_answers r.window.unread hk) ?_ ?_
  · rintro ⟨receipt, k⟩ hle hk
    refine (safe_of (Act.upholds_require hle _)).bind fun _ _ => ?_
    refine safe_check hle ?_
    exact (settle_safe (h.advance _ _ _)).bind fun r' h' => safe_pure ⟨h'.1, hk⟩
  · exact fun _ hover => ⟨_, .inl rfl, Guarded.require_bind_of_not hover _ _,
      Act.require_bind_of_not hover _ _⟩

/-- By induction on the rounds. -/
theorem drainRounds_safe [ByteSource σ] [AnsweringSource σ] (rounds total : Nat) (h : r.Secure)
    (hk : AnsweringSink.Sound k) :
    Safe (Checked.drainRounds rounds total r k) (r.drainRounds rounds total k)
      fun (_, r', k') => r'.Secure ∧ AnsweringSink.Sound k' := by
  induction rounds generalizing total r k with
  | zero => exact safe_of Act.upholds_exhausted
  | succ rounds ih =>
    rw [Checked.drainRounds, drainRounds]
    refine (fill_safe h).bind ?_
    rintro r₁ ⟨h₁, -⟩
    refine .ite (fun _ => safe_pure ⟨h₁.toSecure, hk⟩) fun _ => ?_
    refine (drain_safe h₁.toSecure hk).bind ?_
    rintro ⟨receipt, r₂, k₂⟩ ⟨h₂, hk₂⟩
    exact .ite (fun _ => safe_pure ⟨h₂, hk₂⟩) fun _ => ih _ h₂ hk₂

theorem concludeTransfer_upholds [ByteSource σ] [AnsweringSource σ] (h : r.Secure) :
    r.concludeTransfer.Upholds fun (_, r') => r'.Secure := by
  unfold concludeTransfer
  refine .ite (fun _ => ?_) fun _ => Act.upholds_pure h.cleared
  exact (settle_upholds r).bind fun r' hs => Act.upholds_pure (h.settles hs).cleared

/-- **Emptying a reader is safe.** -/
theorem writeTo_safe [BulkSource σ] [AnsweringSource σ] [AnsweringTransfer σ κ] (h : r.Secure)
    (hk : AnsweringSink.Sound k) :
    Safe (Checked.writeTo r k) (r.writeTo k) fun (_, r', k') =>
      r'.Secure ∧ AnsweringSink.Sound k' := by
  refine (drain_safe (h.withMemory r.fault none none) hk).bind ?_
  rintro ⟨first, r₁, k₁⟩ ⟨h₁, hk₁⟩
  refine .ite (fun _ => safe_pure ⟨h₁, hk₁⟩) fun _ => ?_
  refine (safe_of (AnsweringTransfer.writeTo_upholds h₁.source hk₁)).bind ?_
  rintro ⟨bulk, s, k₂⟩ ⟨hs, hk₂⟩
  have h₂ : Secure { r₁ with source := s } := ⟨h₁.inBounds, hs⟩
  cases bulk with
  | some receipt => exact safe_pure ⟨h₂, hk₂⟩
  | none =>
    refine (safe_of Act.upholds_patience).bind fun rounds _ => ?_
    refine (drainRounds_safe rounds first.count h₂ hk₂).bind ?_
    rintro ⟨rest, r₃, k₃⟩ ⟨h₃, hk₃⟩
    refine .ite (fun _ => safe_pure ⟨h₃, hk₃⟩) fun _ => ?_
    refine (safe_of (concludeTransfer_upholds h₃)).bind ?_
    rintro ⟨fault, r₄⟩ h₄
    exact safe_pure ⟨h₄, hk₃⟩

end Transfer

/-! ## A reader as a source -/

instance [ByteSource σ] [AnsweringSource σ] : AnsweringSource (Reader σ) where
  Sound := Secure
  read_answers room h := (read_safe room h).upholds.answers

instance [BulkSource σ] [AnsweringSource σ] [ByteSink κ] [AnsweringSink κ]
    [AnsweringTransfer σ κ] : AnsweringTransfer (Reader σ) κ where
  writeTo_upholds h hk :=
    (writeTo_safe h hk).upholds.bind fun (_, _, _) h' => Act.upholds_pure h'

/-! ## Operations and tasks -/

/-- Every operation is safe. -/
theorem perform_safe [ByteSource σ] [AnsweringSource σ] (op : Op) (h : r.Secure) :
    Safe (Checked.perform op r) (perform op r) fun (_, r') => r'.Secure := by
  cases op with
  | peek n => exact (peek_safe n h).bind fun _ h' => safe_pure h'
  | read room => exact (read_safe room h).bind fun _ h' => safe_pure h'.2
  | readByte => exact (readByte_safe h).bind fun _ h' => safe_pure h'
  | unreadByte => exact (unreadByte_safe h).bind fun _ h' => safe_pure h'
  | readRune => exact (readRune_safe h).bind fun _ h' => safe_pure h'
  | unreadRune =>
    show Safe _ (pure r.unreadRune >>= fun x => pure (x.map Outcome.pushed id)) _
    exact (unreadRune_safe h).bind fun _ h' => safe_pure h'
  | readSlice delim => exact (readSlice_safe delim h).bind fun _ h' => safe_pure h'
  | readLine => exact (readLine_safe h).bind fun _ h' => safe_pure h'
  | readBytes delim => exact (readBytes_safe delim h).bind fun _ h' => safe_pure h'
  | readString delim => exact (readString_safe delim h).bind fun _ h' => safe_pure h'
  | plainRead room => exact (plainRead_safe room h).bind fun _ h' => safe_pure h'
  | fillBuf => exact (fillBuf_safe h).bind fun _ h' => safe_pure h'
  | consume n => exact (consume_safe n h).bind fun _ h' => safe_pure h'
  | adapt size pool => exact (adapt_safe size pool h).bind fun _ h' => safe_pure h'

/-- A result of a task may hold a sink, which is in a state in which it may be then. -/
def Result.Secure [ByteSink κ] [AnsweringSink κ] : Result κ → Prop
  | .outcome _ => True
  | .moved _ k => AnsweringSink.Sound k

/-- What a task asks of the sink that it moves bytes into. -/
def Task.Secure [ByteSink κ] [AnsweringSink κ] : Task κ → Prop
  | .op _ => True
  | .writeTo k => AnsweringSink.Sound k

/-- **Every task is safe.** -/
theorem execute_safe [BulkSource σ] [AnsweringSource σ] [ByteSink κ] [AnsweringSink κ]
    [AnsweringTransfer σ κ] {task : Task κ} (htask : task.Secure) (h : r.Secure) :
    Safe (Checked.execute task r) (execute task r) fun (result, r') =>
      result.Secure ∧ r'.Secure := by
  cases task with
  | op op => exact (perform_safe op h).bind fun _ h' => safe_pure ⟨trivial, h'⟩
  | writeTo k => exact (writeTo_safe h htask).bind fun _ h' => safe_pure ⟨h'.2, h'.1⟩

end BufferedStream.Reader
