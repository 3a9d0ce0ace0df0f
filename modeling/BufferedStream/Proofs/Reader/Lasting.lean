import BufferedStream.Proofs.Reader.Emptying

/-!
# What lasts

Much of what is known of a reader in every state is known of its source and of the error that it
has latched.  Such a property lasts if filling the buffer keeps it: then emptying the reader
into a sink keeps it too, however often the sink fails, and if operations keep it, it holds in
every state.

* `Reader.Lasting` — a property that fillings keep, and moves that make no call.
* `Reader.Lasting.drainRounds_keeps`, `Reader.Lasting.writeTo_keeps` — emptying keeps it.
* `Reader.Reachable.lasting` — it holds in every state.
-/

namespace BufferedStream

namespace Reader

variable {τ κ : Type}

/-- A property of readers that fillings keep, and every move that makes no call and latches
nothing. -/
structure Lasting [ByteSource τ] (I : Reader τ → Prop) : Prop where
  wf {r : Reader τ} : I r → r.WF
  congr {r r' : Reader τ} : I r → r'.WF → r'.source = r.source →
    (r'.fault = none ∨ r'.fault = r.fault) → I r'
  fill {r r' : Reader τ} {ds : List Draw} : I r → r.Filled ds r' → I r'

theorem Drains.fault_eq [Keeping κ] {r r' : Reader τ} {k k' : κ} {receipt : Receipt}
    (hd : r.Drains k receipt r' k') : r'.fault = r.fault := by
  cases hd with
  | nothing => rfl
  | wrote _ _ _ hs => exact hs.fault_eq

namespace Lasting

section Emptying

variable [ByteSink κ] [Keeping κ] {H : Halt → Prop} {sh : Shared} {r r' : Reader τ}

omit [ByteSink κ] in
theorem drains_keeps [ByteSource τ] {I : Reader τ → Prop} (hI : Lasting I) {k k' : κ}
    {receipt : Receipt} (h : I r) (hd : r.Drains k receipt r' k') : I r' :=
  hI.congr h (hd.wf (hI.wf h)) hd.source_eq (.inr hd.fault_eq)

/-- By induction on the rounds, each a filling and a draining. -/
theorem drainRounds_keeps [ByteSource τ] {I : Reader τ → Prop} (hI : Lasting I)
    [HonestSource H τ] [HonestSink H κ] (hH : H .exhausted) (rounds total : Nat) (k : κ)
    (h : I r) : Act.Meets H (drainRounds rounds total r k) sh fun (_, r', _) _ => I r' := by
  induction rounds generalizing total r k sh with
  | zero => exact hH
  | succ rounds ih =>
    rw [drainRounds]
    refine Act.meets_bind.mpr ((fill_meets r).imp ?_)
    rintro r₁ sh₁ ⟨ds, hf⟩
    have h₁ := hI.fill h hf
    split
    · exact h₁
    · refine Act.meets_bind.mpr ((drain_meets r₁ k).imp ?_)
      rintro ⟨receipt, r₂, k₁⟩ sh₂ hd
      have h₂ := hI.drains_keeps h₁ hd
      dsimp only
      split
      · exact h₂
      · exact ih _ k₁ h₂

/-- **Emptying keeps what lasts**, if a bulk transfer does. -/
theorem writeTo_keeps [BulkSource τ] {I : Reader τ → Prop} (hI : Lasting I) [HonestSource H τ]
    [HonestSink H κ] (hH : H .exhausted)
    (hbulk : ∀ (r : Reader τ) (k : κ) sh, I r →
      Act.Meets H (BulkSource.writeTo r.source k) sh fun (_, source, _) _ => I { r with source })
    (k : κ) (h : I r) : Act.Meets H (r.writeTo k) sh fun (_, r', _) _ => I r' := by
  have hwf := hI.wf h
  have hforget : I r.forgetting := hI.congr h ⟨hwf.1, hwf.2, hwf.3, hwf.4⟩ rfl (.inr rfl)
  refine Act.meets_bind.mpr ((drain_meets r.forgetting k).imp ?_)
  intro ⟨receipt, r₁, k₁⟩ sh₁ hd
  have h₁ := hI.drains_keeps hforget hd
  dsimp only
  split
  · exact h₁
  · refine Act.meets_bind.mpr ((hbulk r₁ k₁ sh₁ h₁).imp ?_)
    intro ⟨bulk, s, k₂⟩ sh₂ h₂
    dsimp only
    split
    · exact h₂
    · refine Act.meets_bind.mpr (Act.meets_patience.mpr (Act.meets_bind.mpr
        ((hI.drainRounds_keeps hH _ _ k₂ h₂).imp ?_)))
      intro ⟨receipt, r₃, k₃⟩ sh₃ h₃
      dsimp only
      split
      · exact h₃
      · refine Act.meets_bind.mpr ((concludeTransfer_meets r₃).imp ?_)
        intro ⟨fault, r'⟩ sh₄ ⟨r₄, hs, hr'⟩
        have hwf₄ := (hs.wf (hI.wf h₃)).cleared
        subst hr'
        exact hI.congr h₃ hwf₄ hs.source_eq (.inl rfl)

end Emptying

end Lasting

/-- **What lasts holds in every state**, if it holds at the start and operations and bulk
transfers keep it.  By induction on what was done with the reader. -/
theorem Reachable.lasting [BulkSource τ] [HonestSource (fun _ => True) τ] {I : Reader τ → Prop}
    (hI : Lasting I) (hstart : ∀ s size pool, I (withCapacity s size pool))
    (hperform : ∀ {r r' : Reader τ} {op : Op} {ds : List Draw} {outcome : Outcome},
      I r → r.Performs op ds outcome r' → I r')
    (hbulk : ∀ {κ : Type} [ByteSink κ] (r : Reader τ) (k : κ) sh, I r →
      Act.IfEnds (BulkSource.writeTo r.source k) sh fun (_, source, _) _ => I { r with source })
    {r : Reader τ} (h : r.Reachable) : I r := by
  induction h with
  | start s size pool => exact hstart s size pool
  | @step κ _ _ _ r r' task result sh sh' _ hrun ih =>
    have : HonestSink (fun _ => True) κ := .mono (H := (· = Halt.exhausted)) fun _ _ => trivial
    cases task with
    | op op =>
      have hm : Act.IfEnds (execute (.op op : Task κ) r) sh fun x _ => I x.2 := by
        refine Act.meets_bind.mpr ((perform_meets trivial op (hI.wf ih)).imp ?_)
        intro ⟨outcome, r'⟩ sh' ⟨ds, hp⟩
        exact hperform ih hp
      exact hm.of_ok hrun
    | writeTo k =>
      have hm : Act.IfEnds (execute (.writeTo k) r) sh fun x _ => I x.2 := by
        refine Act.meets_bind.mpr ((hI.writeTo_keeps trivial hbulk k ih).imp ?_)
        intro ⟨receipt, r', k'⟩ sh' hr'
        exact hr'
      exact hm.of_ok hrun

end Reader

end BufferedStream
