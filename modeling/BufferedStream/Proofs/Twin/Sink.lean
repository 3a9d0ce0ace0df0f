import BufferedStream.Proofs.Script
import BufferedStream.Proofs.Watched

/-!
# Blind sinks

Sinks that do not look at the pools, when they are written to (`BlindSink`) and
when they draw a source themselves (`BlindIntake`): memory, scripted sinks, and
any of these with a record of the calls made on it (`Watched`).  Two watched sinks
count as the same only if the calls made on them were the same, byte by byte.
-/

namespace BufferedStream

open BlindSink (Same)

/-- A sink that does not look at the pools either when it draws a source that does
not. -/
class BlindIntake (κ : Type) [BulkSink κ] [BlindSink κ] : Prop where
  readFrom_same {σ : Type} [ByteSource σ] [BlindSource σ] [HonestSource (fun _ => True) σ]
    {k k' : κ} {s s' : σ} : Same k k' → BlindSource.Same s s' →
    Act.Agree (fun (receipt, k, s) (receipt', k', s') =>
        receipt = receipt' ∧ Same k k' ∧ BlindSource.Same s s')
      (BulkSink.readFrom k s) (BulkSink.readFrom k' s')

/-! ## Memory -/

section Memory

variable {σ : Type} [ByteSource σ] [BlindSource σ]

/-- By induction on the rounds: the same chunks are kept. -/
theorem readRounds_agree (rounds total : Nat) (m : MemorySink) {s s' : σ}
    (hs : BlindSource.Same s s') :
    Act.Agree (fun (receipt, m, s) (receipt', m', s') =>
        receipt = receipt' ∧ m = m' ∧ BlindSource.Same s s')
      (m.readRounds rounds total s) (m.readRounds rounds total s') := by
  induction rounds generalizing total m s s' with
  | zero => exact Act.agree_throw _
  | succ rounds ih =>
    rw [MemorySink.readRounds, MemorySink.readRounds]
    refine (BlindSource.read_same _ _ hs rfl).bind ?_
    rintro ⟨g, s₁⟩ ⟨_, s₁'⟩ ⟨rfl, hs₁⟩
    refine Act.agree_require.bind fun _ _ _ => ?_
    dsimp only
    split
    · exact Act.agree_pure ⟨rfl, rfl, hs₁⟩
    · exact Act.agree_pure ⟨rfl, rfl, hs₁⟩
    · refine .ite Iff.rfl (fun _ => ?_) fun _ => ih _ _ hs₁
      exact Act.agree_pure ⟨rfl, rfl, hs₁⟩

end Memory

instance : BlindIntake MemorySink where
  readFrom_same {_ _ _ _ m _ _ _} hm hs := by
    subst hm
    show Act.Agree _ (m.readFrom _) (m.readFrom _)
    unfold MemorySink.readFrom
    refine Act.agree_patience.bind ?_
    rintro rounds _ rfl
    exact readRounds_agree rounds 0 m hs

/-! ## Sinks without an intake of their own -/

instance {κ : Type} [ByteSink κ] [BlindSink κ] : BlindSink (Unbulked κ) where
  Same u u' := Same u.sink u'.sink
  same_refl u := BlindSink.same_refl u.sink
  write_same b hu := by
    refine (BlindSink.write_same b hu).bind ?_
    rintro ⟨receipt, k⟩ ⟨_, k'⟩ ⟨rfl, hk⟩
    exact Act.agree_pure ⟨rfl, hk⟩

instance {κ : Type} [ByteSink κ] [BlindSink κ] : BlindIntake (Unbulked κ) where
  readFrom_same hu hs := Act.agree_pure ⟨rfl, hu, hs⟩

/-! ## Scripted sinks -/

namespace Script.TruthfulSink

instance : BlindSink TruthfulSink where
  Same := Eq
  same_refl _ := rfl
  write_same b hk := by
    subst hk
    exact Act.agree_pure ⟨rfl, rfl⟩

instance : BlindIntake TruthfulSink where
  readFrom_same {_ _ _ _ t _ _ _} ht hs := by
    subst ht
    show Act.Agree _ (t.readFrom _) (t.readFrom _)
    unfold readFrom
    split
    · exact Act.agree_pure ⟨rfl, rfl, hs⟩
    · refine (BlindSource.read_same _ _ hs rfl).bind ?_
      rintro ⟨g, s₁⟩ ⟨_, s₁'⟩ ⟨rfl, hs₁⟩
      exact Act.agree_pure ⟨rfl, rfl, hs₁⟩

end Script.TruthfulSink

/-! ## Watched sinks -/

namespace Watched

variable {κ : Type} [BulkSink κ] [BlindSink κ]

/-- Watched sinks are the same if the same calls were made on them. -/
instance : BlindSink (Watched κ) where
  Same t t' := Same t.sink t'.sink ∧ t.calls = t'.calls
  same_refl t := ⟨BlindSink.same_refl t.sink, rfl⟩
  write_same b ht := by
    refine (BlindSink.write_same b ht.1).bind ?_
    rintro ⟨receipt, k⟩ ⟨_, k'⟩ ⟨rfl, hk⟩
    rw [ht.2]
    exact Act.agree_pure ⟨rfl, hk, rfl⟩

instance [BlindIntake κ] : BlindIntake (Watched κ) where
  readFrom_same ht hs := by
    refine (BlindIntake.readFrom_same ht.1 hs).bind ?_
    rintro ⟨receipt, k, s⟩ ⟨_, k', s'⟩ ⟨rfl, hk, hs'⟩
    rw [ht.2]
    exact Act.agree_pure ⟨rfl, ⟨hk, rfl⟩, hs'⟩

end Watched

end BufferedStream
