import BufferedStream.Proofs.Reader.Bytes
import BufferedStream.Reader.Transfer

/-!
# Sources of finitely many bytes, and layers over them

A source of finitely many bytes hands them out in non-empty chunks and reports the
end once they are gone (`FiniteSource`).  A reader over it does so as well, as long
as it is offered room; offered none, it may report the end although bytes are
left.  `Layer` is what the two have in common.

* `Layer` — a source that may be hasty: ready to report the end too early, to a
  caller that offers no room.
* `Layer.calls_roomy` — calls that offer room hand out the bytes that remain, and
  raise nothing but the end, at the end.
* `Layer.calls_roomless` — calls that offer none move nothing, and raise the end too
  early just if the layer was hasty.
-/

namespace BufferedStream

/-- An honest source of finitely many bytes: it hands them out in non-empty chunks,
and reports the end, and nothing else, when none remains. -/
class FiniteSource (τ : Type) [ByteSource τ] extends HonestSource (fun _ => False) τ where
  /-- The bytes that remain to be handed out. -/
  remaining : τ → Bytes
  remaining_of_reads {s s' : τ} {n : Nat} {g : Reading} :
    ByteSource.Reads s n g s' → remaining s = g.data ++ remaining s'
  fault_of_reads {s s' : τ} {n : Nat} {g : Reading} :
    ByteSource.Reads s n g s' → g.fault = none ∨ (g.fault = some .eof ∧ remaining s' = [])
  /-- Offered room, the source brings bytes or reports the end. -/
  brings_of_reads {s s' : τ} {n : Nat} {g : Reading} :
    ByteSource.Reads s n g s' → 0 < n → g.data = [] → g.fault = some .eof

/-- A source of finitely many bytes that may be hasty. -/
class Layer (σ : Type) [ByteSource σ] extends HonestSource (fun _ => False) σ where
  /-- The bytes that remain to be handed out. -/
  remaining : σ → Bytes
  /-- The end is not announced before the bytes are gone. -/
  Sound : σ → Prop
  /-- Offered no room, the source would report the end although bytes remain. -/
  Hasty : σ → Prop
  remaining_of_hasty {s : σ} : Sound s → Hasty s → remaining s ≠ []
  remaining_of_reads {s s' : σ} {n : Nat} {g : Reading} : Sound s → ByteSource.Reads s n g s' →
    Sound s' ∧ remaining s = g.data ++ remaining s'
  fault_of_reads {s s' : σ} {n : Nat} {g : Reading} : Sound s → ByteSource.Reads s n g s' →
    g.fault = none ∨ g.fault = some .eof
  ends_of_reads {s s' : σ} {n : Nat} {g : Reading} : Sound s → ByteSource.Reads s n g s' →
    0 < n → (g.fault = some .eof → remaining s' = []) ∧ (g.data = [] → g.fault = some .eof)
  hasty_of_reads {s s' : σ} {g : Reading} : Sound s → ByteSource.Reads s 0 g s' →
    (g.fault = some .eof ∧ remaining s' ≠ [] ↔ Hasty s) ∧ ¬ Hasty s'

/-- A finite source is a layer that is never hasty. -/
instance {τ : Type} [ByteSource τ] [FiniteSource τ] : Layer τ where
  remaining := FiniteSource.remaining
  Sound _ := True
  Hasty _ := False
  remaining_of_hasty _ h := h.elim
  remaining_of_reads _ h := ⟨trivial, FiniteSource.remaining_of_reads h⟩
  fault_of_reads _ h := (FiniteSource.fault_of_reads h).imp id And.left
  ends_of_reads _ h hn := by
    refine ⟨fun heof => ?_, FiniteSource.brings_of_reads h hn⟩
    rcases FiniteSource.fault_of_reads h with hnone | ⟨-, hend⟩
    · rw [hnone] at heof
      cases heof
    · exact hend
  hasty_of_reads _ h := by
    refine ⟨⟨fun ⟨heof, hne⟩ => ?_, False.elim⟩, id⟩
    rcases FiniteSource.fault_of_reads h with hnone | ⟨-, hend⟩
    · rw [hnone] at heof
      cases heof
    · exact hne hend

namespace Layer

variable {σ : Type} [ByteSource σ] [Layer σ] {s s' : σ} {ds : List Draw}

/-- A call with room on a sound layer brings something. -/
theorem brings {n : Nat} {g : Reading} (hs : Sound s) (h : ByteSource.Reads s n g s')
    (hn : 0 < n) : g.fault.isSome = true ∨ 0 < g.count := by
  by_cases hdata : g.data = []
  · left
    rw [(ends_of_reads hs h hn).2 hdata]
    rfl
  · right
    rw [(HonestSource.of_reads (H := fun _ => False) h).1]
    exact List.length_pos_iff.mpr hdata

/-- By induction on the calls: with room, the bytes that remain are handed out in
order, and what arises is the end, once they are gone. -/
theorem calls_roomy (h : Calls s ds s') (hs : Sound s) (hroom : ∀ d ∈ ds, 0 < d.offered) :
    Sound s' ∧ remaining s = drawn ds ++ remaining s' ∧
      ∀ e ∈ Reader.arisen ds, e = .eof ∧ remaining s' = [] := by
  induction h with
  | nil => exact ⟨hs, rfl, by simp⟩
  | @cons s s₁ s₂ n g ds hreads hcalls ih =>
    obtain ⟨hn, hroom⟩ := List.forall_mem_cons.mp hroom
    obtain ⟨hs₁, hremaining⟩ := remaining_of_reads hs hreads
    obtain ⟨hs₂, hremaining₁, harisen⟩ := ih hs₁ hroom
    refine ⟨hs₂, ?_, ?_⟩
    · rw [hremaining, hremaining₁, drawn_cons, List.append_assoc]
    · rw [Reader.arisen, Reader.arisenAfter_brought 0 ds ((brings hs hreads hn).imp id .inl)]
      intro e he
      rcases List.mem_append.mp he with he | he
      · rcases fault_of_reads hs hreads with hfault | hfault
        · rw [show (⟨n, g⟩ : Draw).reading.fault = none from hfault] at he
          cases he
        · rw [show (⟨n, g⟩ : Draw).reading.fault = some .eof from hfault] at he
          have hend := (ends_of_reads hs hreads hn).1 hfault
          rw [hremaining₁, List.append_eq_nil_iff] at hend
          exact ⟨List.mem_singleton.mp he, hend.2⟩
      · exact harisen e he

/-- Calls that offer room and bring nothing raise the end. -/
theorem arisen_ne_nil (h : Calls s ds s') (hs : Sound s) (hroom : ∀ d ∈ ds, 0 < d.offered)
    (hne : ds ≠ []) (hdrawn : drawn ds = []) : Reader.arisen ds ≠ [] := by
  cases h with
  | nil => exact absurd rfl hne
  | @cons _ s₁ _ n g ds hreads _ =>
    have hn := hroom _ List.mem_cons_self
    rw [drawn_cons, List.append_eq_nil_iff] at hdrawn
    have heof := (ends_of_reads hs hreads hn).2 hdrawn.1
    rw [Reader.arisen, Reader.arisenAfter_brought 0 ds ((brings hs hreads hn).imp id .inl),
      show (⟨n, g⟩ : Draw).reading.fault = some .eof from heof]
    exact List.cons_ne_nil _ _

/-- By induction on the calls: without room nothing moves, and the end arises too
early just if the first call finds the layer hasty. -/
theorem calls_roomless (h : Calls s ds s') (hs : Sound s) (hroom : ∀ d ∈ ds, d.offered = 0) :
    Sound s' ∧ remaining s' = remaining s ∧ drawn ds = [] ∧
      (∀ e ∈ Reader.arisen ds, e = .eof) ∧
      (ds ≠ [] → (.eof ∈ Reader.arisen ds ∧ remaining s' ≠ [] ↔ Hasty s)) := by
  induction h with
  | nil => exact ⟨hs, rfl, rfl, by simp, fun hne => absurd rfl hne⟩
  | @cons s s₁ s₂ n g ds hreads hcalls ih =>
    obtain ⟨hn, hrooms⟩ := List.forall_mem_cons.mp hroom
    obtain rfl : n = 0 := hn
    obtain ⟨hs₁, hremaining⟩ := remaining_of_reads hs hreads
    obtain ⟨hcount, hle⟩ := HonestSource.of_reads (H := fun _ => False) hreads
    have hdata : g.data = [] := List.eq_nil_of_length_eq_zero (by omega)
    rw [hdata, List.nil_append] at hremaining
    obtain ⟨hs₂, hremaining₂, hdrawn, honly, hlater⟩ := ih hs₁ hrooms
    obtain ⟨hhasty, hcalm⟩ := hasty_of_reads hs hreads
    have hbrought := Reader.arisenAfter_brought (d := ⟨0, g⟩) 0 ds (.inr (.inr rfl))
    have hfault := fault_of_reads hs hreads
    refine ⟨hs₂, hremaining₂.trans hremaining.symm, ?_, ?_, fun _ => ?_⟩
    · rw [drawn_cons, hdrawn, List.append_nil]
      exact hdata
    · rw [Reader.arisen, hbrought]
      intro e he
      rcases List.mem_append.mp he with he | he
      · rw [Option.mem_toList] at he
        rcases hfault with hnone | heof
        · exact absurd (hnone.symm.trans he) (by simp)
        · exact Option.some.inj (he.symm.trans heof)
      · exact honly e he
    · rw [← hhasty, hremaining₂, Reader.arisen, hbrought, List.mem_append, Option.mem_toList]
      constructor
      · rintro ⟨hmem, hne⟩
        refine ⟨hmem.resolve_right fun hmem => ?_, hne⟩
        have hds : ds ≠ [] := by
          rintro rfl
          cases hmem
        exact hcalm ((hlater hds).mp ⟨hmem, hremaining₂.symm ▸ hne⟩)
      · rintro ⟨heof, hne⟩
        exact ⟨.inl heof, hne⟩

end Layer

/-! ## Readers as sources -/

namespace Reader

variable {σ : Type} [ByteSource σ] {H : Halt → Prop} {sh : Shared}

omit [ByteSource σ] in
theorem deliverOrReport_honest (r : Reader σ) (n : Nat) :
    Act.Meets H (r.deliverOrReport n) sh fun (g, _) _ =>
      g.count = g.data.length ∧ g.count ≤ n := by
  unfold deliverOrReport
  split
  · refine (deliver_meets r n).imp ?_
    rintro ⟨g, r'⟩ sh' ⟨rfl, -⟩
    exact ⟨rfl, List.length_take_le ..⟩
  · refine Act.meets_bind.mpr ((settle_meets r).imp ?_)
    intro r' sh' _
    exact ⟨rfl, Nat.zero_le _⟩

/-- A reader is an honest source, in whatever state it is. -/
instance [HonestSource H σ] : HonestSource H (Reader σ) where
  read_honest r room sh := by
    show Act.Meets H (r.read room) sh _
    unfold read
    dsimp only
    split
    · exact ⟨rfl, Nat.zero_le _⟩
    · split
      · exact r.deliverOrReport_honest _
      · split
        · refine Act.meets_bind.mpr ((draw_meets room r).imp ?_)
          rintro ⟨g, r₁⟩ sh₁ ⟨s, -, hcount, hle, -⟩
          dsimp only
          split
          · exact ⟨hcount, hle⟩
          · exact ⟨hcount, hle⟩
        · refine Act.meets_bind.mpr (Act.meets_bind.mpr ((acquire_meets r).imp ?_))
          intro r₁ sh₁ _
          refine Act.meets_bind.mpr ((draw_meets _ _).imp ?_)
          rintro ⟨g, r₂⟩ sh₂ -
          exact deliverOrReport_honest _ _

end Reader

end BufferedStream
