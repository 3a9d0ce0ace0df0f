import BufferedStream.Proofs.Sink

/-!
# Acts that agree

Two acts *agree* when nothing tells them apart but the pools (`Act.Agree`): started with
shared data that differ in their pools at most, both end with results of which a
relation holds, or both are halted for the same reason.

* `Act.Agree.bind` — acts agree step by step.
* `Act.agree_of_usesPools` — acts that only use the pools agree on whatever each of them
  returns.
* `BlindSource`, `BlindSink`, `BlindBulk` — endpoints that do not look at the pools, nor
  at what a room holds.
-/

namespace BufferedStream

/-- What streams share, but for the pools. -/
def Shared.withoutPools (sh : Shared) : Shared := { sh with pools := [] }

/-- Two states of what streams share differ in their pools at most. -/
def Shared.Alike (sh sh' : Shared) : Prop := sh.withoutPools = sh'.withoutPools

theorem Shared.alike_withPool (sh : Shared) (id : PoolId) (p : Pool) :
    sh.Alike (sh.withPool id p) := rfl

theorem Shared.Alike.field {ι : Type} {sh sh' : Shared} (f : Shared → ι)
    (hf : ∀ sh, f sh.withoutPools = f sh) (h : sh.Alike sh') : f sh = f sh' := by
  rw [← hf sh, ← hf sh', h]

namespace Act

variable {α β γ δ : Type} {R : α → β → Prop} {S : γ → δ → Prop} {m : Act α} {m' : Act β}

/-- Started with shared data that differ in their pools at most, the two acts end with
results of which `R` holds and with such shared data, or are halted for the same
reason. -/
def Agree (R : α → β → Prop) (m : Act α) (m' : Act β) : Prop :=
  ∀ sh sh' : Shared, sh.Alike sh' →
    match m sh, m' sh' with
    | .ok a sh₁, .ok b sh₁' => R a b ∧ sh₁.Alike sh₁'
    | .error e _, .error e' _ => e = e'
    | _, _ => False

theorem agree_pure {a : α} {b : β} (h : R a b) : Agree R (pure a) (pure b) :=
  fun _ _ hsh => ⟨h, hsh⟩

theorem agree_throw (e : Halt) : Agree R (throw e) (throw e) := fun _ _ _ => rfl

/-- **Acts agree step by step.** -/
theorem Agree.bind {f : α → Act γ} {f' : β → Act δ} (h : Agree R m m')
    (hf : ∀ a b, R a b → Agree S (f a) (f' b)) : Agree S (m >>= f) (m' >>= f') := by
  intro sh sh' hsh
  have hm := h sh sh' hsh
  simp only [Bind.bind, EStateM.bind]
  cases hr : m sh with
  | ok a sh₁ =>
    cases hr' : m' sh' with
    | ok b sh₁' =>
      rw [hr, hr'] at hm
      exact hf a b hm.1 sh₁ sh₁' hm.2
    | error e' sh₁' => rw [hr, hr'] at hm; exact hm.elim
  | error e sh₁ =>
    cases hr' : m' sh' with
    | ok b sh₁' => rw [hr, hr'] at hm; exact hm.elim
    | error e' sh₁' => rw [hr, hr'] at hm; exact hm

theorem Agree.imp {R' : α → β → Prop} (h : Agree R m m') (hR : ∀ a b, R a b → R' a b) :
    Agree R' m m' := by
  intro sh sh' hsh
  have hm := h sh sh' hsh
  revert hm
  cases m sh <;> cases m' sh' <;> first | exact id | exact And.imp (hR _ _) id

/-- What is known of the results of the first act may be kept. -/
theorem Agree.and_meets {H : Halt → Prop} {P : α → Prop} (h : Agree R m m')
    (hm : ∀ sh, Meets H m sh fun a _ => P a) : Agree (fun a b => R a b ∧ P a) m m' := by
  intro sh sh' hsh
  have hagree := h sh sh' hsh
  have hmeets := hm sh
  unfold Meets at hmeets
  revert hagree hmeets
  cases m sh <;> cases m' sh'
  · exact fun hagree hp => ⟨⟨hagree.1, hp⟩, hagree.2⟩
  · exact fun hagree _ => hagree
  · exact fun hagree _ => hagree
  · exact fun hagree _ => hagree

/-- Branches agree if they are taken alike. -/
theorem Agree.ite {c c' : Prop} [Decidable c] [Decidable c'] {m₁ m₂ : Act α} {m₁' m₂' : Act β}
    (hc : c ↔ c') (h₁ : c → Agree R m₁ m₁') (h₂ : ¬ c → Agree R m₂ m₂') :
    Agree R (if c then m₁ else m₂) (if c' then m₁' else m₂') := by
  by_cases h : c
  · rw [if_pos h, if_pos (hc.mp h)]
    exact h₁ h
  · rw [if_neg h, if_neg (mt hc.mpr h)]
    exact h₂ h

/-! ## The basic acts -/

theorem agree_require {holds : Bool} {b : Breach} :
    Agree (fun _ _ => holds = true) (require holds b) (require holds b) := by
  cases holds
  · exact agree_throw _
  · exact agree_pure rfl

theorem agree_patience : Agree Eq patience patience :=
  fun _ _ hsh => ⟨Shared.Alike.field Shared.patience (fun _ => rfl) hsh, hsh⟩

theorem agree_isKept (e : Error) : Agree Eq (isKept e) (isKept e) :=
  fun _ _ hsh => ⟨Shared.Alike.field (fun sh => sh.kept.any e.same) (fun _ => rfl) hsh, hsh⟩

/-- The act always returns, and changes the pools at most. -/
def UsesPools (m : Act α) : Prop := ∀ sh, Returns m sh fun _ sh' => sh.Alike sh'

/-- **Acts that only use the pools agree** on whatever each of them returns. -/
theorem agree_of_usesPools {P : α → Prop} {Q : β → Prop} (h : UsesPools m) (h' : UsesPools m')
    (hP : ∀ sh, Returns m sh fun a _ => P a) (hQ : ∀ sh, Returns m' sh fun b _ => Q b) :
    Agree (fun a b => P a ∧ Q b) m m' := by
  intro sh sh' hsh
  obtain ⟨a, sh₁, hm, hsh₁, ha⟩ := Returns.exists_ok ((h sh).and (hP sh))
  obtain ⟨b, sh₁', hm', hsh₁', hb⟩ := Returns.exists_ok ((h' sh').and (hQ sh'))
  rw [hm, hm']
  exact ⟨⟨ha, hb⟩, (hsh₁.symm.trans hsh).trans hsh₁'⟩

end Act

/-! ## Blind endpoints -/

/-- A source that does not look at the pools, nor at what a room holds: two of its states
that are the same answer alike, and remain the same. -/
class BlindSource (σ : Type) [ByteSource σ] where
  Same : σ → σ → Prop
  read_same {s s' : σ} (room room' : Room) : Same s s' → room.size = room'.size →
    Act.Agree (fun (g, s) (g', s') => g = g' ∧ Same s s') (ByteSource.read s room)
      (ByteSource.read s' room')

/-- A sink that does not look at the pools. -/
class BlindSink (κ : Type) [ByteSink κ] where
  Same : κ → κ → Prop
  same_refl (k : κ) : Same k k
  write_same {k k' : κ} (b : Bytes) : Same k k' →
    Act.Agree (fun (receipt, k) (receipt', k') => receipt = receipt' ∧ Same k k')
      (ByteSink.write k b) (ByteSink.write k' b)

/-- A source that does not look at the pools either when it is emptied into a sink that does
not. -/
class BlindBulk (σ : Type) [BulkSource σ] [BlindSource σ] : Prop where
  writeTo_same {κ : Type} [ByteSink κ] [BlindSink κ] {s s' : σ} {k k' : κ} :
    BlindSource.Same s s' → BlindSink.Same k k' →
    Act.Agree (fun (receipt, s, k) (receipt', s', k') =>
        receipt = receipt' ∧ BlindSource.Same s s' ∧ BlindSink.Same k k')
      (BulkSource.writeTo s k) (BulkSource.writeTo s' k')

/-- A source without a bulk transfer of its own. -/
instance {σ : Type} [BulkSource σ] [BlindSource σ] [Bulkless σ] : BlindBulk σ where
  writeTo_same hs hk := by
    rw [Bulkless.writeTo_eq, Bulkless.writeTo_eq]
    exact Act.agree_pure ⟨rfl, hs, hk⟩

/-- A memory sink. -/
instance : BlindSink MemorySink where
  Same := Eq
  same_refl _ := rfl
  write_same b hk := by
    subst hk
    exact Act.agree_pure ⟨rfl, rfl⟩

/-- A sink with a record of what passed into it. -/
instance {κ : Type} [ByteSink κ] [BlindSink κ] : BlindSink (Tap κ) where
  Same t t' := BlindSink.Same t.sink t'.sink ∧ t.passed = t'.passed
  same_refl t := ⟨BlindSink.same_refl t.sink, rfl⟩
  write_same b ht := by
    refine (BlindSink.write_same b ht.1).bind ?_
    rintro ⟨receipt, k⟩ ⟨_, k'⟩ ⟨rfl, hk⟩
    rw [ht.2]
    exact Act.agree_pure ⟨rfl, hk, rfl⟩

/-! ## Traced sources -/

section Traced

variable {σ : Type}

/-- Traced sources are the same if the same was asked of them and the same came of it. -/
instance [ByteSource σ] [BlindSource σ] : BlindSource (Traced σ) where
  Same t t' := BlindSource.Same t.source t'.source ∧ t.draws = t'.draws ∧ t.given = t'.given
  read_same room room' ht hroom := by
    refine (BlindSource.read_same room room' ht.1 hroom).bind ?_
    rintro ⟨g, s⟩ ⟨_, s'⟩ ⟨rfl, hs⟩
    rw [ht.2.1, ht.2.2, hroom]
    exact Act.agree_pure ⟨rfl, hs, rfl, rfl⟩

instance [BulkSource σ] [BlindSource σ] [BlindBulk σ] : BlindBulk (Traced σ) where
  writeTo_same {_ _ _ _ _ k k'} ht hk := by
    have htap : BlindSink.Same ({ sink := k } : Tap _) { sink := k' } := ⟨hk, rfl⟩
    refine (BlindBulk.writeTo_same ht.1 htap).bind ?_
    rintro ⟨receipt, s, tap⟩ ⟨_, s', tap'⟩ ⟨rfl, hs, hsink, hpassed⟩
    dsimp only
    rw [ht.2.2, hpassed]
    exact Act.agree_pure ⟨rfl, ⟨hs, ht.2.1, rfl⟩, hsink⟩

end Traced

end BufferedStream
