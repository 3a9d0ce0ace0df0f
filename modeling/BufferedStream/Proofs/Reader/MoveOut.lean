import BufferedStream.Proofs.Limit
import BufferedStream.Proofs.Reader.Finite
import BufferedStream.Proofs.Twin.Basic

/-!
# Moving what remains into a sink

A sound reader that is emptied moves its unread bytes first, and then those of its source: at
once, if the source has a bulk transfer, or filling after filling.  Into a sink that takes bytes
up to a limit both ways move the same, wherever the limit falls: what is refused is left, partly
in the buffer and partly in the source.

* `Reader.drain_moves`, `Reader.drain_then_moves` — the unread bytes are moved, and then, if
  none was refused, those behind them.
* `Reader.drainRounds_moves` — filling and draining by turns moves what remains.
* `Reader.writeTo_moves`, `Reader.writeTo_moves_in_bulk` — so does emptying, either way.
-/

namespace BufferedStream

namespace Reader

variable {σ κ : Type} [ByteSink κ] {P : κ → Bytes → Limit → Prop}
  {refusal : Option (ErrorId → Error)} {c : Bytes} {l : Limit} {k : κ} {sh : Shared}

/-! ## Draining -/

/-- The unread bytes are moved, and what is refused of them stays unread. -/
theorem drain_moves [ByteSource σ] [Layer σ] (hP : TakesWithin P refusal) {r : Reader σ}
    (h : r.Sound) (hk : P k c l) :
    Act.Returns (r.drain k) sh fun (receipt, r', k') sh' =>
      (Moves P refusal c l r.window.unread receipt r'.window.unread k' ∧ r'.Sound ∧
        r'.source = r.source) ∧ sh'.patience = sh.patience := by
  unfold drain
  split
  · rename_i hunread
    rw [hunread]
    exact ⟨⟨by rw [hunread]; exact .nil hk, h, rfl⟩, rfl⟩
  · refine Act.meets_bind.mpr ((hP r.window.unread sh hk).imp ?_)
    intro ⟨receipt, k'⟩ sh₁ ⟨⟨hcount, hfault, hk'⟩, hpatience⟩
    have hle : receipt.count ≤ r.buffered := by
      rw [hcount, Limit.within_eq_take]
      exact List.length_take_le' ..
    refine Act.meets_bind.mpr ((Act.meets_require (decide_eq_true hle)).mpr ?_)
    have hmoves := Moves.of_write hcount hfault hk'
    have hadvanced : ({ r with window := r.window.advance receipt.count } : Reader σ).Sound :=
      h.congr (h.wf.advance _ _ _) rfl (.inr rfl)
    refine Act.meets_bind.mpr (((settle_meets _).patient (settle_usesPools _).keepsPatience).imp ?_)
    intro r' sh₂ ⟨hs, hpatience'⟩
    refine ⟨⟨?_, hadvanced.congr (hs.wf hadvanced.wf) hs.source_eq (.inr hs.fault_eq),
      hs.source_eq⟩, hpatience'.trans hpatience⟩
    rw [hs.unread_eq]
    exact hmoves

/-- **Draining comes first.**  What is refused of the unread bytes ends the emptying; else those
that the source has left are moved behind them, and counted on. -/
theorem drain_then_moves [ByteSource σ] [Layer σ] (hP : TakesWithin P refusal) {r : Reader σ}
    (h : r.Sound) (hk : P k c l) (total : Nat)
    {next : Receipt × Reader σ × κ → Act (Receipt × Reader σ × κ)}
    (hstops : ∀ first r₁ k₁, first.fault.isSome = true →
      next (first, r₁, k₁) = pure (⟨total + first.count, first.fault⟩, r₁, k₁))
    (hgoes : ∀ first r₁ k₁ sh₁, first.fault = none → r₁.Sound → r₁.window.unread = [] →
      r₁.source = r.source → P k₁ (c ++ r.window.unread) (l.behind r.window.unread) →
      sh₁.patience = sh.patience →
      Act.Returns (next (first, r₁, k₁)) sh₁ fun (receipt, r', k') _ => r'.Sound ∧
        ∃ n, receipt.count = total + first.count + n ∧
          Moves P refusal (c ++ r.window.unread) (l.behind r.window.unread)
            (Layer.remaining r.source) ⟨n, receipt.fault⟩ r'.remaining k') :
    Act.Returns (r.drain k >>= next) sh fun (receipt, r', k') _ => r'.Sound ∧
      ∃ n, receipt.count = total + n ∧
        Moves P refusal c l r.remaining ⟨n, receipt.fault⟩ r'.remaining k' := by
  refine Act.meets_bind.mpr ((drain_moves hP h hk).imp ?_)
  intro ⟨first, r₁, k₁⟩ sh₁ ⟨⟨hmoves, h₁, hsource⟩, hpatience⟩
  dsimp only at hmoves ⊢
  cases hfault : first.fault with
  | some e =>
    have hsome : first.fault.isSome = true := by rw [hfault]; rfl
    rw [hstops first r₁ k₁ hsome]
    refine ⟨h₁, first.count, rfl, ?_⟩
    rw [show r₁.remaining = r₁.window.unread ++ Layer.remaining r.source by rw [← hsource]; rfl]
    exact hmoves.stopped hsome _
  | none =>
    have hk₁ := hmoves.sink
    rw [hmoves.within_eq hfault] at hk₁
    refine (hgoes first r₁ k₁ sh₁ hfault h₁ (hmoves.left_eq_nil hfault) hsource hk₁
      hpatience).imp ?_
    intro ⟨receipt, r', k'⟩ sh₂ ⟨h', n, hcount, hlater⟩
    exact ⟨h', first.count + n, by rw [hcount, Nat.add_assoc], hmoves.append hfault hlater⟩

/-! ## Filling and draining by turns -/

section Rounds

variable [ByteSource σ] [Layer σ] {r r' : Reader σ} {ds : List Draw}

/-- A filling of a buffer with room moves bytes from the source to the buffer. -/
theorem Filled.sound (hf : r.Filled ds r') (h : r.Sound) (hroom : r.buffered < r.size) :
    r'.Sound ∧ r'.remaining = r.remaining := by
  have hwf := hf.wf h.wf
  obtain ⟨s, fault, spare, length, hcalls, hmade, rfl⟩ := hf
  have hpos : ∀ d ∈ ds, 0 < d.offered := by
    intro d hd
    rw [hmade.offered_eq d hd]
    omega
  obtain ⟨hsource, hremaining, harisen⟩ := Layer.calls_roomy hcalls h.source hpos
  rw [hmade.arisen_eq] at harisen
  refine ⟨⟨hwf, hsource, ?_⟩, ?_⟩
  · show fault.or r.fault = none ∨ fault.or r.fault = some .eof ∧ Layer.remaining s = []
    cases fault with
    | some e =>
      obtain ⟨rfl, hend⟩ := harisen e (List.mem_singleton_self e)
      exact .inr ⟨rfl, hend⟩
    | none =>
      refine h.fault.imp id fun ⟨heof, hend⟩ => ⟨heof, ?_⟩
      rw [hremaining, List.append_eq_nil_iff] at hend
      exact hend.2
  · show (r.window.unread ++ drawn ds) ++ Layer.remaining s = _
    rw [Reader.remaining, hremaining, List.append_assoc]

/-- By induction on the rounds, each of which moves what a filling brings; the last one finds
that nothing remains. -/
theorem drainRounds_moves (hP : TakesWithin P refusal) (rounds total : Nat) (h : r.Sound)
    (hunread : r.window.unread = []) (hrounds : r.remaining.length < rounds) (hk : P k c l) :
    Act.Returns (drainRounds rounds total r k) sh fun (receipt, r', k') _ => r'.Sound ∧
      ∃ n, receipt.count = total + n ∧
        Moves P refusal c l r.remaining ⟨n, receipt.fault⟩ r'.remaining k' := by
  induction rounds generalizing total r k c l sh with
  | zero => exact absurd hrounds (Nat.not_lt_zero _)
  | succ rounds ih =>
    have hroom : r.buffered < r.size := by
      rw [buffered, hunread]
      exact h.wf.size_pos
    rw [drainRounds]
    refine Act.meets_bind.mpr ((fill_meets r).imp ?_)
    rintro r₁ sh₁ ⟨ds, hf⟩
    obtain ⟨h₁, hremaining⟩ := hf.sound h hroom
    split
    · -- nothing came but the end
      rename_i hempty
      obtain ⟨e, he⟩ : ∃ e, r₁.fault = some e := by
        rcases hf.progress hroom with hsome | hmore
        · exact Option.isSome_iff_exists.mp hsome
        · rw [buffered, buffered, hempty] at hmore
          exact absurd hmore (Nat.not_lt_zero _)
      have hnothing : r₁.remaining = [] := by
        rw [Reader.remaining, hempty, (h₁.fault_eq he).2]
        rfl
      rw [← hremaining]
      refine ⟨h₁, 0, rfl, ?_⟩
      rw [hnothing]
      exact .nil hk
    · rename_i hbrought
      rw [← hremaining] at hrounds ⊢
      refine drain_then_moves hP h₁ hk total (fun first r₂ k₁ hrefused => if_pos hrefused) ?_
      intro first r₂ k₁ sh₂ hgoes h₂ hempty hsource hk₁ _
      have hrest : r₂.remaining = Layer.remaining r₁.source := by
        rw [Reader.remaining, hempty, hsource]
        rfl
      have hshorter : r₂.remaining.length < rounds := by
        have hpos := List.length_pos_iff.mpr hbrought
        rw [Reader.remaining, List.length_append] at hrounds
        rw [hrest]
        omega
      dsimp only
      rw [if_neg (by rw [hgoes]; rintro ⟨⟩), ← hrest]
      exact ih (total + first.count) h₂ hempty hshorter hk₁

end Rounds

/-! ## Emptying -/

/-- A sound reader has no error to report at last but the end, which is none. -/
theorem Sound.concludeTransfer [ByteSource σ] [Layer σ] {r : Reader σ} (h : r.Sound) :
    Act.Returns r.concludeTransfer sh fun (fault, r') _ =>
      fault = none ∧ r'.Sound ∧ r'.remaining = r.remaining := by
  have hcleared : ∀ r₁, r.Settles r₁ →
      r₁.cleared.Sound ∧ r₁.cleared.remaining = r.remaining := by
    intro r₁ hs
    refine ⟨h.congr (hs.wf h.wf).cleared hs.source_eq (.inl rfl), ?_⟩
    show r₁.window.unread ++ Layer.remaining r₁.source = _
    rw [hs.unread_eq, hs.source_eq]
    rfl
  unfold Reader.concludeTransfer
  split
  · refine Act.meets_bind.mpr ((settle_meets r).imp ?_)
    intro r₁ sh₁ hs
    exact ⟨rfl, hcleared r₁ hs⟩
  · rename_i hnot
    refine ⟨?_, hcleared r .keeps⟩
    rcases h.fault with hnone | ⟨heof, -⟩
    · exact hnone
    · rw [heof] at hnot
      exact absurd rfl hnot

theorem Sound.forgetting [ByteSource σ] [Layer σ] {r : Reader σ} (h : r.Sound) :
    r.forgetting.Sound :=
  h.congr ⟨h.wf.1, h.wf.2, h.wf.3, h.wf.4⟩ rfl (.inr rfl)

/-- **Emptying by turns moves what remains** in the reader and its source. -/
theorem writeTo_moves [BulkSource σ] [Layer σ] [Bulkless σ] (hP : TakesWithin P refusal)
    {r : Reader σ} (h : r.Sound) (hk : P k c l) (hpatience : r.remaining.length < sh.patience) :
    Act.Returns (r.writeTo k) sh fun (receipt, r', k') _ =>
      r'.Sound ∧ Moves P refusal c l r.remaining receipt r'.remaining k' := by
  refine (drain_then_moves hP h.forgetting hk 0 ?_ ?_).imp ?_
  · intro first r₁ k₁ hrefused
    rw [Nat.zero_add]
    exact if_pos hrefused
  · intro first r₁ k₁ sh₁ hgoes h₁ hempty hsource hk₁ hkept
    have hrest : r₁.remaining = Layer.remaining r.source := by
      rw [Reader.remaining, hempty, hsource]
      rfl
    have hrounds : r₁.remaining.length < sh₁.patience := by
      rw [hkept, hrest]
      rw [Reader.remaining, List.length_append] at hpatience
      omega
    dsimp only
    rw [if_neg (by rw [hgoes]; rintro ⟨⟩), Bulkless.writeTo_eq, pure_bind, Nat.zero_add]
    refine Act.meets_bind.mpr (Act.meets_patience.mpr (Act.meets_bind.mpr
      ((drainRounds_moves hP _ first.count h₁ hempty hrounds hk₁).imp ?_)))
    rintro ⟨rest, r₂, k₂⟩ sh₂ ⟨h₂, n, hcount, hmoves⟩
    rw [hrest] at hmoves
    dsimp only at hmoves ⊢
    split
    · exact ⟨h₂, n, hcount, hmoves⟩
    · rename_i hended
      rw [Option.not_isSome_iff_eq_none] at hended
      refine Act.meets_bind.mpr (h₂.concludeTransfer.imp ?_)
      rintro ⟨fault, r'⟩ sh₃ ⟨hnone, h', hremaining⟩
      rw [hended] at hmoves
      refine ⟨h', n, hcount, ?_⟩
      rw [hnone, hremaining]
      exact hmoves
  · rintro ⟨receipt, r', k'⟩ sh₁ ⟨h', n, hcount, hmoves⟩
    rw [Nat.zero_add] at hcount
    subst hcount
    exact ⟨h', hmoves⟩

end Reader

/-! ## In bulk -/

/-- A byte string is a source of finitely many bytes. -/
instance : FiniteSource MemorySource where
  read_honest := HonestSource.read_honest
  remaining := MemorySource.left
  remaining_of_reads := by
    rintro s s' n g ⟨room, sh, sh', -, hread⟩
    obtain ⟨left⟩ := s
    cases left with
    | nil => cases hread; rfl
    | cons x xs => cases hread; exact (List.take_append_drop ..).symm
  fault_of_reads := by
    rintro s s' n g ⟨room, sh, sh', -, hread⟩
    obtain ⟨left⟩ := s
    cases left with
    | nil =>
      cases hread
      by_cases h0 : room.size = 0
      · exact .inl (if_pos h0)
      · exact .inr ⟨if_neg h0, rfl⟩
    | cons x xs => cases hread; exact .inl rfl
  brings_of_reads := by
    rintro s s' n g ⟨room, sh, sh', rfl, hread⟩ hpos hdata
    obtain ⟨left⟩ := s
    cases left with
    | nil => cases hread; exact if_neg (Nat.ne_of_gt hpos)
    | cons x xs =>
      cases hread
      rcases List.take_eq_nil_iff.mp hdata with h0 | hnil
      · exact absurd h0 (Nat.ne_of_gt hpos)
      · cases hnil

section Bulk

variable {κ : Type} [ByteSink κ] {P : κ → Bytes → Limit → Prop}
  {refusal : Option (ErrorId → Error)} {c : Bytes} {l : Limit} {k : κ} {sh : Shared}

/-- All the bytes that are left are moved at once. -/
theorem MemorySource.writeTo_moves (hP : TakesWithin P refusal) (m : MemorySource)
    (hk : P k c l) :
    Act.Returns (BulkSource.writeTo m k) sh fun (receipt, m', k') _ => ∃ moved,
      receipt = some moved ∧ Moves P refusal c l m.left moved m'.left k' := by
  show Act.Returns (m.writeTo k) sh _
  unfold MemorySource.writeTo
  split
  · rename_i hleft
    refine ⟨_, rfl, ?_⟩
    rw [hleft]
    exact .nil hk
  · refine Act.meets_bind.mpr ((hP m.left sh hk).imp ?_)
    intro ⟨receipt, k'⟩ sh₁ ⟨⟨hcount, hfault, hk'⟩, _⟩
    have hle : receipt.count ≤ m.left.length := by
      rw [hcount, Limit.within_eq_take]
      exact List.length_take_le' ..
    refine Act.meets_bind.mpr ((Act.meets_require (decide_eq_true hle)).mpr ?_)
    have hmoves := Moves.of_write hcount hfault hk'
    rw [Bool.and_comm] at hmoves
    exact ⟨_, rfl, hmoves⟩

/-- **Emptying in bulk moves what remains** in the reader and its source. -/
theorem Reader.writeTo_moves_in_bulk (hP : TakesWithin P refusal) {r : Reader MemorySource}
    (h : r.Sound) (hk : P k c l) :
    Act.Returns (r.writeTo k) sh fun (receipt, r', k') _ =>
      r'.Sound ∧ Moves P refusal c l r.remaining receipt r'.remaining k' := by
  refine (drain_then_moves hP h.forgetting hk 0 ?_ ?_).imp ?_
  · intro first r₁ k₁ hrefused
    rw [Nat.zero_add]
    exact if_pos hrefused
  · intro first r₁ k₁ sh₁ hgoes h₁ hempty hsource hk₁ _
    dsimp only
    rw [if_neg (by rw [hgoes]; rintro ⟨⟩), hsource, Nat.zero_add]
    refine Act.meets_bind.mpr ((r.source.writeTo_moves hP hk₁).imp ?_)
    rintro ⟨_, m', k'⟩ sh₂ ⟨moved, rfl, hmoves⟩
    refine ⟨⟨⟨h₁.wf.1, h₁.wf.2, h₁.wf.3, h₁.wf.4⟩, trivial, ?_⟩, moved.count, rfl, ?_⟩
    · refine h₁.fault.imp id fun ⟨heof, hend⟩ => ⟨heof, ?_⟩
      rw [hsource] at hend
      have hleft := hmoves.left_eq
      rw [show r.source.left = [] from hend, List.drop_nil] at hleft
      exact hleft
    · show Moves P refusal _ _ _ _ (r₁.window.unread ++ m'.left) k'
      rw [hempty]
      exact hmoves
  · intro ⟨receipt, r', k'⟩ sh₁ ⟨h', n, hcount, hmoves⟩
    rw [Nat.zero_add] at hcount
    subst hcount
    exact ⟨h', hmoves⟩

end Bulk

end BufferedStream
