import BufferedStream.Proofs.Stack.Layer
import BufferedStream.Proofs.Twin.Level

/-!
# Twins that change hands

* `Reader.adapt_agree` — moving to a larger buffer keeps twins level.
* `Reader.writeTo_agree` — twins empty themselves alike into sinks that do not look at the
  pools.
* A reader over a blind source is a blind source itself, so all this holds of readers upon
  readers, whatever pools they share.
-/

namespace BufferedStream

namespace Reader

variable {σ κ : Type} {r t : Reader σ} {worn : Prop}

/-! ## Moving to a larger buffer -/

section Adapt

theorem surrender_agree (r t : Reader σ) :
    Act.Agree (fun _ _ => True) r.surrender t.surrender :=
  (Act.agree_of_usesPools r.surrender_usesPools t.surrender_usesPools
    (fun sh => (r.surrender_usesPools sh).imp fun _ _ _ => trivial)
    (fun sh => (t.surrender_usesPools sh).imp fun _ _ _ => trivial)).imp fun _ _ _ => trivial

variable [ByteSource σ] [BlindSource σ]

/-- Only what is unread moves along, and only if there is something. -/
theorem regrow_agree (h : Level worn r t) (size : Nat) (pool : PoolId) :
    Act.Agree (Level worn) (r.regrow size pool) (t.regrow size pool) := by
  have hgrown : Twin
      { withCapacity r.source size pool with
        fault := r.fault, lastByte := r.lastByte, lastRune := r.lastRune }
      { withCapacity t.source size pool with
        fault := t.fault, lastByte := t.lastByte, lastRune := t.lastRune } :=
    ⟨h.source, rfl, h.fault, h.lastByte, h.lastRune, rfl, .inl ⟨rfl, rfl⟩⟩
  have hmoves : (r.held.isSome && r.window.unread ≠ []) = true ↔
      (t.held.isSome && t.window.unread ≠ []) = true := by
    rw [← h.unread]
    by_cases hnil : r.window.unread = []
    · simp [hnil]
    · rw [(h.kept_of_unread hnil).1]
  unfold regrow
  dsimp only
  refine .ite hmoves (fun _ => ?_) fun _ => ?_
  · refine (acquire_agree _ _).bind ?_
    rintro _ _ ⟨⟨length, spare, rfl⟩, length', spare', rfl⟩
    have hslid := fun spare spare' => hgrown.slid ⟨[], r.window.unread, spare⟩
      ⟨[], t.window.unread, spare'⟩ h.unread ⟨rfl, rfl⟩ length length'
    refine (surrender_agree r t).bind fun _ _ _ => Act.agree_pure ?_
    exact .of_past_nil (hslid _ _).toTwin h.recalls.1 rfl ⟨rfl, rfl⟩
  · refine (surrender_agree r t).bind fun _ _ _ => Act.agree_pure ?_
    exact .of_past_nil hgrown h.recalls.1 rfl ⟨rfl, rfl⟩

theorem adapt_agree (h : Level worn r t) (size : Nat) (pool : PoolId) :
    Act.Agree (Level worn) (r.adapt size pool) (t.adapt size pool) :=
  .ite (by rw [h.size]) (fun _ => Act.agree_pure h) fun _ => regrow_agree h size pool

end Adapt

/-! ## Emptying into a sink -/

/-- The same was moved into sinks that are the same, by twins that remember no rune. -/
def Moved [ByteSource σ] [BlindSource σ] [ByteSink κ] [BlindSink κ]
    (x y : Receipt × Reader σ × κ) : Prop :=
  x.1 = y.1 ∧ Mute x.2.1 y.2.1 ∧ BlindSink.Same x.2.2 y.2.2

section Drain

variable [ByteSource σ] [BlindSource σ] [ByteSink κ] [BlindSink κ] {k k' : κ}

theorem drain_agree (h : Mute r t) (hk : BlindSink.Same k k') :
    Act.Agree Moved (r.drain k) (t.drain k') := by
  unfold drain
  refine .ite (by rw [h.unread]) (fun _ => Act.agree_pure ⟨rfl, h, hk⟩) fun _ => ?_
  dsimp only
  rw [h.unread, h.buffered]
  refine (BlindSink.write_same _ hk).bind ?_
  rintro ⟨receipt, k₁⟩ ⟨_, k₁'⟩ ⟨rfl, hk₁⟩
  refine Act.agree_require.bind fun _ _ _ => ?_
  have hmute : Mute _ _ := ⟨h.advance receipt.count, h.lastRune_eq⟩
  exact hmute.settle_agree.bind fun _ _ h₁ => Act.agree_pure ⟨rfl, h₁, hk₁⟩

variable [HonestSource (fun _ => True) σ]

/-- By induction on the rounds: twins fill and drain in step. -/
theorem drainRounds_agree (rounds total : Nat) (h : Mute r t) (hk : BlindSink.Same k k') :
    Act.Agree Moved (drainRounds rounds total r k) (drainRounds rounds total t k') := by
  induction rounds generalizing total r t k k' with
  | zero => exact Act.agree_throw _
  | succ rounds ih =>
    refine (fill_agree h.toTwin).bind fun r₁ t₁ h₁ => ?_
    have hmute : Mute r₁ t₁ := ⟨h₁.toTwin, h₁.lastRune_eq.trans h.lastRune_eq⟩
    refine .ite (by rw [h₁.unread]) (fun _ => Act.agree_pure ⟨rfl, hmute, hk⟩) fun _ => ?_
    refine (drain_agree hmute hk).bind ?_
    rintro ⟨receipt, r₂, k₂⟩ ⟨_, t₂, k₂'⟩ ⟨rfl, h₂, hk₂⟩
    exact .ite Iff.rfl (fun _ => Act.agree_pure ⟨rfl, h₂, hk₂⟩) fun _ => ih _ h₂ hk₂

omit [ByteSink κ] [BlindSink κ] [HonestSource (fun _ => True) σ] in
theorem concludeTransfer_agree (h : Mute r t) :
    Act.Agree (Both Mute) r.concludeTransfer t.concludeTransfer := by
  unfold concludeTransfer
  refine .ite (by rw [h.fault]) (fun _ => ?_) fun _ => Act.agree_pure ⟨h.fault, h.cleared⟩
  exact h.settle_agree.bind fun _ _ h' => Act.agree_pure ⟨rfl, h'.cleared⟩

end Drain

variable [BulkSource σ] [BlindSource σ] [BlindBulk σ] [HonestSource (fun _ => True) σ]

/-- **Emptying.**  Nothing that twins write tells them apart. -/
theorem writeTo_agree [ByteSink κ] [BlindSink κ] {k k' : κ} (h : Twin r t)
    (hk : BlindSink.Same k k') : Act.Agree Moved (r.writeTo k) (t.writeTo k') := by
  have hmute := h.mute (Eq.refl none)
  refine (drain_agree hmute hk).bind ?_
  rintro ⟨first, r₁, k₁⟩ ⟨_, t₁, k₁'⟩ ⟨rfl, h₁, hk₁⟩
  refine .ite Iff.rfl (fun _ => Act.agree_pure ⟨rfl, h₁, hk₁⟩) fun _ => ?_
  refine (BlindBulk.writeTo_same h₁.source hk₁).bind ?_
  rintro ⟨bulk, s, k₂⟩ ⟨_, s', k₂'⟩ ⟨rfl, hs, hk₂⟩
  have h₂ : Mute { r₁ with source := s } { t₁ with source := s' } :=
    ⟨h₁.withSource hs, h₁.lastRune_eq⟩
  cases bulk with
  | some receipt => exact Act.agree_pure ⟨rfl, h₂, hk₂⟩
  | none =>
    refine Act.agree_patience.bind ?_
    rintro rounds _ rfl
    refine (drainRounds_agree rounds first.count h₂ hk₂).bind ?_
    rintro ⟨rest, r₃, k₃⟩ ⟨_, t₃, k₃'⟩ ⟨rfl, h₃, hk₃⟩
    refine .ite Iff.rfl (fun _ => Act.agree_pure ⟨rfl, h₃, hk₃⟩) fun _ => ?_
    refine (concludeTransfer_agree h₃).bind ?_
    rintro ⟨fault, r₄⟩ ⟨_, t₄⟩ ⟨rfl, h₄⟩
    exact Act.agree_pure ⟨rfl, h₄, hk₃⟩

/-! ## Readers as sources -/

/-- Nothing tells level readers apart that are only read. -/
instance : BlindSource (Reader σ) where
  Same := Level True
  read_same _ _ h hroom := read_agree h hroom fun _ => trivial

instance : BlindBulk (Reader σ) where
  writeTo_same h hk := by
    refine (writeTo_agree h.toTwin hk).bind ?_
    rintro ⟨receipt, r', k₁⟩ ⟨_, t', k₁'⟩ ⟨rfl, h', hk'⟩
    exact Act.agree_pure ⟨rfl, h'.level, hk'⟩

end Reader

end BufferedStream
