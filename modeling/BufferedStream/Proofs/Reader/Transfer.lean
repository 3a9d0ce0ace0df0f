import BufferedStream.Proofs.Reader.Bytes
import BufferedStream.Proofs.Sink
import BufferedStream.Reader.Transfer

/-!
# What a reader does when it moves

A reader may be moved to a larger buffer, or emptied into a sink.

* `Reader.adapt_meets` — moving keeps everything but the bytes that lie behind.
* `Reader.writeTo_meets` — emptying: the unread bytes go first, then what the
  source moves in bulk, then filling after filling.
-/

namespace BufferedStream

open History (given)
open Keeping (kept)

namespace Reader

variable {σ κ : Type} {H : Halt → Prop} {sh : Shared}

/-! ## Moving to a larger buffer -/

/-- The ways of getting a buffer of at least the given size. -/
inductive Adapts (size : Nat) (pool : PoolId) (r : Reader σ) : Reader σ → Prop
  | kept (h : size ≤ r.size) : Adapts size pool r r
  | regrown {held : Option Nat} {spare : Bytes} (h : r.size < size)
      (hheld : held = none → r.window.unread = []) :
      Adapts size pool r
        { r with
          size := max size minReadBufferSize, pool, held,
          window := { unread := r.window.unread, spare } }

/-- Giving the block away has no result; it always returns. -/
theorem surrender_meets {r : Reader σ} {post : Unit → Shared → Prop} (h : ∀ sh', post () sh') :
    Act.Meets H r.surrender sh post := by
  unfold surrender
  split
  · exact Act.meets_bind.mpr (Act.meets_release.mpr (h _))
  · exact h _

theorem adapt_meets {r : Reader σ} (h : r.WF) (size : Nat) (pool : PoolId) :
    Act.Meets H (r.adapt size pool) sh fun r' _ => r.Adapts size pool r' := by
  unfold adapt
  split
  · rename_i hle
    exact .kept hle
  · rename_i hlt
    have hlt := Nat.lt_of_not_le hlt
    unfold regrow
    dsimp only
    split
    · refine Act.meets_bind.mpr ((acquire_meets _).imp ?_)
      rintro r' sh' ⟨length, spare, rfl⟩
      refine Act.meets_bind.mpr ((Act.meets_pure _).mpr
        (Act.meets_bind.mpr (surrender_meets fun _ => ?_)))
      exact Adapts.regrown hlt (by simp [withBlock])
    · rename_i hheld
      have hunread : r.window.unread = [] := by
        rw [Bool.and_eq_true, decide_eq_true_eq, not_and, Decidable.not_not] at hheld
        cases hb : r.held with
        | none => exact h.unread_of_held hb
        | some length => exact hheld (by rw [hb]; rfl)
      refine Act.meets_bind.mpr ((Act.meets_pure _).mpr
        (Act.meets_bind.mpr (surrender_meets fun _ => ?_)))
      have hregrown : r.Adapts size pool
          { r with
            size := max size minReadBufferSize, pool, held := none,
            window := { unread := r.window.unread, spare := [] } } :=
        .regrown hlt fun _ => hunread
      rw [hunread] at hregrown
      exact hregrown

theorem Adapts.source_eq {size : Nat} {pool : PoolId} {r r' : Reader σ}
    (ha : r.Adapts size pool r') : r'.source = r.source := by
  cases ha <;> rfl

theorem Adapts.wf {size : Nat} {pool : PoolId} {r r' : Reader σ} (ha : r.Adapts size pool r')
    (h : r.WF) : r'.WF := by
  cases ha with
  | kept => exact h
  | regrown hlt hheld =>
    refine ⟨Nat.le_max_right .., ?_, fun _ => rfl, hheld⟩
    have hle := h.buffered_le
    simp only [buffered, List.length_nil] at hle ⊢
    omega

/-! ## Writing the unread bytes -/

section Drain

variable [ByteSink κ] [Keeping κ]

/-- The ways of writing the unread bytes to a sink: it takes a number of them,
and an error is reported unless these were all. -/
inductive Drains (r : Reader σ) (k : κ) : Receipt → Reader σ → κ → Prop
  | nothing (h : r.window.unread = []) : Drains r k ⟨0, none⟩ r k
  | wrote {n : Nat} {fault : Option Error} {r' : Reader σ} {k' : κ} (hle : n ≤ r.buffered)
      (hkept : kept k' = kept k ++ r.window.unread.take n)
      (hall : fault = none → n = r.buffered)
      (hs : Settles { r with window := r.window.advance n } r') : Drains r k ⟨n, fault⟩ r' k'

theorem drain_meets [HonestSink H κ] (r : Reader σ) (k : κ) :
    Act.Meets H (r.drain k) sh fun (receipt, r', k') _ => r.Drains k receipt r' k' := by
  unfold drain
  split
  · rename_i hunread
    exact .nothing hunread
  · refine Act.meets_bind.mpr ((HonestSink.write_honest k r.window.unread sh).imp ?_)
    rintro ⟨receipt, k'⟩ sh' ⟨hle, hkept⟩
    refine Act.meets_bind.mpr ((Act.meets_require (decide_eq_true hle)).mpr ?_)
    refine Act.meets_bind.mpr ((settle_meets _).imp ?_)
    intro r' sh'' hs
    refine .wrote hle hkept ?_ hs
    intro hnone
    split at hnone
    · cases hnone
    · rename_i hshort
      simp only [hnone, Option.isNone_none, Bool.true_and, decide_eq_true_eq] at hshort
      exact Nat.le_antisymm hle (Nat.le_of_not_lt hshort)

end Drain

/-! ## Emptying -/

section Empty

variable [ByteSource σ] [ByteSink κ] [Keeping κ]

/-- The ways of filling and draining by turns. -/
inductive Pours : Reader σ → κ → (total : Nat) → Receipt → Reader σ → κ → Prop
  | dry {r r₁ : Reader σ} {ds : List Draw} {k : κ} {total : Nat} (hf : r.Extended ds r₁)
      (hunread : r₁.window.unread = []) : Pours r k total ⟨total, none⟩ r₁ k
  | failed {r r₁ r₂ : Reader σ} {ds : List Draw} {k k' : κ} {total n : Nat} {e : Error}
      (hf : r.Extended ds r₁) (hd : r₁.Drains k ⟨n, some e⟩ r₂ k') :
      Pours r k total ⟨total + n, some e⟩ r₂ k'
  | more {r r₁ r₂ r' : Reader σ} {ds : List Draw} {k k₁ k' : κ} {total n : Nat}
      {receipt : Receipt} (hf : r.Extended ds r₁) (hd : r₁.Drains k ⟨n, none⟩ r₂ k₁)
      (hrest : Pours r₂ k₁ (total + n) receipt r' k') : Pours r k total receipt r' k'

omit [ByteSource σ] [ByteSink κ] in
theorem Drains.wf {r r' : Reader σ} {k k' : κ} {receipt : Receipt} (h : r.WF)
    (hd : r.Drains k receipt r' k') : r'.WF := by
  cases hd with
  | nothing => exact h
  | wrote _ _ _ hs => exact hs.wf (h.advance _ _ _)

omit [ByteSource σ] [ByteSink κ] in
theorem Drains.source_eq {r r' : Reader σ} {k k' : κ} {receipt : Receipt}
    (hd : r.Drains k receipt r' k') : r'.source = r.source := by
  cases hd with
  | nothing => rfl
  | wrote _ _ _ hs => exact hs.source_eq

omit [ByteSink κ] in
theorem Pours.calls {r r' : Reader σ} {k k' : κ} {total : Nat} {receipt : Receipt}
    (hp : r.Pours k total receipt r' k') : ∃ ds, Calls r.source ds r'.source := by
  induction hp with
  | dry hf => exact ⟨_, hf.calls⟩
  | failed hf hd => exact ⟨_, hd.source_eq ▸ hf.calls⟩
  | more hf hd _ ih =>
    obtain ⟨es, hes⟩ := ih
    exact ⟨_, hf.calls.append (hd.source_eq ▸ hes)⟩

omit [ByteSink κ] in
theorem Pours.wf {r r' : Reader σ} {k k' : κ} {total : Nat} {receipt : Receipt}
    (hp : r.Pours k total receipt r' k') : r'.WF := by
  induction hp with
  | dry hf => exact hf.wf
  | failed hf hd => exact hd.wf hf.wf
  | more _ _ _ ih => exact ih

/-- By induction on the rounds.  The invariant, which may count the rounds, is kept by every
filling that brings bytes which the sink takes; where it admits no round, being halted is
admitted. -/
theorem drainRounds_meets_of_invariant [HonestSource H σ] [HonestSink H κ] {I : Nat → Reader σ → Prop}
    (hwf : ∀ rounds r, I rounds r → r.WF) (hzero : ∀ r, I 0 r → H .exhausted)
    (hstep : ∀ rounds r ds r₁ r₂ (k k₁ : κ) n, I (rounds + 1) r → r.Filled ds r₁ →
      r₁.window.unread ≠ [] → r₁.Drains k ⟨n, none⟩ r₂ k₁ → I rounds r₂)
    (rounds total : Nat) (r : Reader σ) (k : κ) (h : I rounds r) :
    Act.Meets H (drainRounds rounds total r k) sh fun (receipt, r', k') _ =>
      r.Pours k total receipt r' k' := by
  induction rounds generalizing total r k sh with
  | zero => exact hzero r h
  | succ rounds ih =>
    rw [drainRounds]
    refine Act.meets_bind.mpr ((fill_meets r).imp ?_)
    rintro r₁ sh₁ ⟨ds, hf⟩
    have hext := hf.extended (hwf _ r h)
    split
    · rename_i hunread
      exact .dry hext hunread
    · rename_i hbrought
      refine Act.meets_bind.mpr ((drain_meets r₁ k).imp ?_)
      rintro ⟨⟨n, fault⟩, r₂, k₁⟩ sh₂ hd
      dsimp only at hd ⊢
      cases fault with
      | some e => exact .failed hext hd
      | none =>
        refine (ih (total + n) r₂ k₁ (hstep _ _ _ _ _ _ _ _ h hf hbrought hd)).imp ?_
        rintro ⟨receipt, r', k'⟩ sh₃ hrest
        exact .more hext hd hrest

theorem drainRounds_meets [HonestSource H σ] [HonestSink H κ] (hH : H .exhausted) (rounds : Nat)
    (total : Nat) (r : Reader σ) (k : κ) (h : r.WF) :
    Act.Meets H (drainRounds rounds total r k) sh fun (receipt, r', k') _ =>
      r.Pours k total receipt r' k' :=
  drainRounds_meets_of_invariant (I := fun _ r => r.WF) (fun _ _ h => h) (fun _ _ => hH)
    (fun _ _ _ _ _ _ _ _ h hf _ hd => hd.wf (hf.wf h)) rounds total r k h

end Empty

/-- What passes when a source is emptied into a sink in bulk. -/
def Passes [ByteSource σ] [History σ] [Keeping κ] (s s' : σ) (k k' : κ) : Prop :=
  ∃ b, given s' = given s ++ b ∧ kept k' = kept k ++ b

/-- The reader that has forgotten what it read last. -/
def forgetting (r : Reader σ) : Reader σ := { r with lastByte := none, lastRune := none }

/-- The ways of moving everything left into a sink. -/
inductive WritesTo [ByteSource σ] [History σ] [ByteSink κ] [Keeping κ] (r : Reader σ) (k : κ) :
    Receipt → Reader σ → κ → Prop
  | stopped {n : Nat} {e : Error} {r₁ : Reader σ} {k₁ : κ}
      (hd : r.forgetting.Drains k ⟨n, some e⟩ r₁ k₁) : WritesTo r k ⟨n, some e⟩ r₁ k₁
  | moved {n m : Nat} {fault : Option Error} {r₁ : Reader σ} {k₁ k₂ : κ} {s : σ}
      (hd : r.forgetting.Drains k ⟨n, none⟩ r₁ k₁) (hb : Passes r₁.source s k₁ k₂) :
      WritesTo r k ⟨n + m, fault⟩ { r₁ with source := s } k₂
  | failed {n m : Nat} {e : Error} {r₁ r₂ : Reader σ} {k₁ k₂ k₃ : κ} {s : σ}
      (hd : r.forgetting.Drains k ⟨n, none⟩ r₁ k₁) (hb : Passes r₁.source s k₁ k₂)
      (hp : Pours { r₁ with source := s } k₂ n ⟨m, some e⟩ r₂ k₃) :
      WritesTo r k ⟨m, some e⟩ r₂ k₃
  | emptied {n m : Nat} {fault : Option Error} {r₁ r₂ r₃ : Reader σ} {k₁ k₂ k₃ : κ} {s : σ}
      (hd : r.forgetting.Drains k ⟨n, none⟩ r₁ k₁) (hb : Passes r₁.source s k₁ k₂)
      (hp : Pours { r₁ with source := s } k₂ n ⟨m, none⟩ r₂ k₃) (hs : r₂.Settles r₃) :
      WritesTo r k ⟨m, fault⟩ r₃.cleared k₃

theorem WritesTo.wf [ByteSource σ] [History σ] [ByteSink κ] [Keeping κ] {r r' : Reader σ}
    {k k' : κ} {receipt : Receipt} (hw : r.WritesTo k receipt r' k') (h : r.WF) : r'.WF := by
  have hforget : r.forgetting.WF := ⟨h.1, h.2, h.3, h.4⟩
  cases hw with
  | stopped hd => exact hd.wf hforget
  | moved hd =>
    have hr := hd.wf hforget
    exact ⟨hr.1, hr.2, hr.3, hr.4⟩
  | failed _ _ hp => exact hp.wf
  | emptied _ _ hp hs => exact (hs.wf hp.wf).cleared

theorem concludeTransfer_meets (r : Reader σ) :
    Act.Meets H r.concludeTransfer sh fun (_, r') _ => ∃ r₁, r.Settles r₁ ∧ r' = r₁.cleared := by
  unfold concludeTransfer
  split
  · refine Act.meets_bind.mpr ((settle_meets r).imp ?_)
    intro r₁ sh' hs
    exact ⟨r₁, hs, rfl⟩
  · exact ⟨r, .keeps, rfl⟩

theorem writeTo_meets [BulkSource σ] [HonestSource H σ] [History σ] [BulkHistory H σ]
    [ByteSink κ] [Keeping κ] [HonestSink H κ] (hH : H .exhausted) {r : Reader σ} (h : r.WF)
    (k : κ) :
    Act.Meets H (r.writeTo k) sh fun (receipt, r', k') _ => r.WritesTo k receipt r' k' := by
  have hforget : r.forgetting.WF := ⟨h.1, h.2, h.3, h.4⟩
  refine Act.meets_bind.mpr ((drain_meets r.forgetting k).imp ?_)
  rintro ⟨⟨n, fault⟩, r₁, k₁⟩ sh₁ hd
  dsimp only at hd ⊢
  cases fault with
  | some e => exact .stopped hd
  | none =>
    refine Act.meets_bind.mpr ((BulkHistory.given_of_writeTo r₁.source k₁ sh₁).imp ?_)
    rintro ⟨bulk, s, k₂⟩ sh₂ hb
    cases bulk with
    | some receipt => exact .moved hd hb
    | none =>
      have hwf : ({ r₁ with source := s } : Reader σ).WF := by
        have := hd.wf hforget
        exact ⟨this.1, this.2, this.3, this.4⟩
      refine Act.meets_bind.mpr (Act.meets_patience.mpr (Act.meets_bind.mpr
        ((drainRounds_meets hH sh₂.patience n _ k₂ hwf).imp ?_)))
      rintro ⟨⟨m, fault⟩, r₂, k₃⟩ sh₃ hp
      dsimp only at hp ⊢
      cases fault with
      | some e => exact .failed hd hb hp
      | none =>
        refine Act.meets_bind.mpr ((concludeTransfer_meets r₂).imp ?_)
        rintro ⟨fault, r'⟩ sh₄ ⟨r₃, hs, rfl⟩
        exact .emptied hd hb hp hs

/-- Emptying only adds to what the source has handed out. -/
theorem WritesTo.given_prefix [ByteSource σ] [History σ] [ByteSink κ] [Keeping κ]
    {r r' : Reader σ} {k k' : κ} {receipt : Receipt} (hw : r.WritesTo k receipt r' k') :
    given r.source <+: given r'.source := by
  have hpours : ∀ {n : Nat} {receipt : Receipt} {r₁ r₂ : Reader σ} {s : σ} {k₁ k₂ k₃ k₄ : κ},
      r.forgetting.Drains k ⟨n, none⟩ r₁ k₁ → Passes r₁.source s k₁ k₂ →
      Pours { r₁ with source := s } k₃ n receipt r₂ k₄ →
      given r.source <+: given r₂.source := by
    rintro n receipt r₁ r₂ s k₁ k₂ k₃ k₄ hd ⟨b, hgiven, -⟩ hp
    obtain ⟨ds, hcalls⟩ := hp.calls
    rw [given_of_calls hcalls, hgiven, hd.source_eq, List.append_assoc]
    exact List.prefix_append ..
  cases hw with
  | stopped hd => rw [hd.source_eq]; exact List.prefix_rfl
  | moved hd hb =>
    obtain ⟨b, hgiven, -⟩ := hb
    rw [hgiven, hd.source_eq]
    exact List.prefix_append ..
  | failed hd hb hp => exact hpours hd hb hp
  | emptied hd hb hp hs =>
    have hprefix := hpours hd hb hp
    rwa [← hs.source_eq] at hprefix

end Reader

end BufferedStream
