import BufferedStream.Proofs.Reader.Attested
import BufferedStream.Proofs.Stack.Sound

/-!
# Readers over sources of finitely many bytes

A source of finitely many bytes reports the end, and nothing else, once they are gone.  So
whatever is done with a reader over it, the reader has latched the end, if anything, and only
over a source that has nothing left.

* `FiniteSource.calls` — what a row of calls hands out and what arises in it.
* `Reader.Performs.sound`, `Reader.lasting_sound` — operations and fillings keep a reader sound.
* `Reader.Reachable.sound` — every state is sound, if the source has no bulk transfer.
-/

namespace BufferedStream

/-- A source keeps its bytes when its emptying is left to others. -/
instance {σ : Type} [ByteSource σ] [FiniteSource σ] : FiniteSource (Piecemeal σ) where
  read_honest := HonestSource.read_honest
  remaining p := FiniteSource.remaining p.source
  remaining_of_reads h := by
    obtain ⟨s', hs, rfl⟩ := Piecemeal.eq_of_reads h
    exact FiniteSource.remaining_of_reads hs
  fault_of_reads h := by
    obtain ⟨s', hs, rfl⟩ := Piecemeal.eq_of_reads h
    exact FiniteSource.fault_of_reads hs
  brings_of_reads h := by
    obtain ⟨s', hs, -⟩ := Piecemeal.eq_of_reads h
    exact FiniteSource.brings_of_reads hs

namespace FiniteSource

variable {τ : Type} [ByteSource τ] [FiniteSource τ] {s s' : τ} {ds : List Draw}

/-- By induction on the calls: the bytes come in order, and what arises is the end, once they
are gone. -/
theorem calls (h : Calls s ds s') : remaining s = drawn ds ++ remaining s' ∧
    ∀ e ∈ Reader.arisen ds, e = .eof ∧ remaining s' = [] := by
  induction h with
  | nil => exact ⟨rfl, by simp⟩
  | @cons s s₁ s₂ n g ds hreads _ ih =>
    obtain ⟨hremaining, harisen⟩ := ih
    refine ⟨by rw [remaining_of_reads hreads, hremaining, drawn_cons, List.append_assoc], ?_⟩
    have hbrings : g.fault.isSome = true ∨ 0 < g.count ∨ n = 0 := by
      by_cases hn : n = 0
      · exact .inr (.inr hn)
      · by_cases hdata : g.data = []
        · left
          rw [brings_of_reads hreads (Nat.pos_of_ne_zero hn) hdata]
          rfl
        · right; left
          rw [(HonestSource.of_reads (H := fun _ => False) hreads).1]
          exact List.length_pos_iff.mpr hdata
    intro e he
    rw [Reader.arisen, Reader.arisenAfter_brought 0 ds hbrings, List.mem_append,
      Option.mem_toList] at he
    rcases he with hfault | he
    · rcases fault_of_reads hreads with hnone | ⟨heof, hend⟩
      · exact absurd (hnone.symm.trans hfault) (by simp)
      · rw [hremaining, List.append_eq_nil_iff] at hend
        exact ⟨Option.some.inj (hfault.symm.trans heof), hend.2⟩
    · exact harisen e he

/-- Only the end arises, and only once nothing is left. -/
theorem of_arises (h : Calls s ds s') {e : Error} (he : Arises e ds) :
    e = .eof ∧ remaining s' = [] := by
  obtain ⟨before, es, after, rfl, hmem⟩ := he
  obtain ⟨s₂, hcalls, hafter⟩ := h.split
  obtain ⟨s₁, -, hes⟩ := hcalls.split
  obtain ⟨heof, hend⟩ := (calls hes).2 e hmem
  rw [(calls hafter).1, List.append_eq_nil_iff] at hend
  exact ⟨heof, hend.2⟩

end FiniteSource

namespace Reader

variable {τ : Type} [ByteSource τ] [FiniteSource τ] {r r' : Reader τ} {ds : List Draw}

/-- What an operation latches keeps the reader sound. -/
theorem Attests.sound (ha : r.Attests ds r') (h : r.Sound) (hcalls : Calls r.source ds r'.source)
    (hwf : r'.WF) : r'.Sound where
  wf := hwf
  source := trivial
  fault := by
    cases hfault : r'.fault with
    | none => exact .inl rfl
    | some e =>
      rcases ha e hfault with hlatched | harises
      · obtain ⟨rfl, hend⟩ := h.fault_eq hlatched
        change FiniteSource.remaining r.source = [] at hend
        rw [(FiniteSource.calls hcalls).1, List.append_eq_nil_iff] at hend
        exact .inr ⟨rfl, hend.2⟩
      · obtain ⟨rfl, hend⟩ := FiniteSource.of_arises hcalls harises
        exact .inr ⟨rfl, hend⟩

theorem Performs.sound {op : Op} {outcome : Outcome} (hp : r.Performs op ds outcome r')
    (h : r.Sound) : r'.Sound :=
  hp.attests.sound h hp.calls (hp.wf h.wf)

theorem lasting_sound : Lasting (Sound (σ := τ)) where
  wf h := h.wf
  congr h := h.congr
  fill h hf := hf.attests.sound h (hf.extended h.wf).calls (hf.wf h.wf)

/-- **Every state is sound**, over a source of finitely many bytes without a bulk transfer. -/
theorem Reachable.sound {τ : Type} [BulkSource τ] [FiniteSource τ] [Bulkless τ] {r : Reader τ}
    (h : r.Reachable) : r.Sound := by
  have : HonestSource (fun _ => True) τ := .of_returns
  refine h.lasting lasting_sound (fun s => sound_withCapacity trivial) (fun h hp => hp.sound h) ?_
  intro κ _ r k sh h
  rw [Bulkless.writeTo_eq]
  exact h

end Reader

end BufferedStream
