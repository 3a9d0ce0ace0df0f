import BufferedStream.Proofs.Reader.Bytes
import BufferedStream.Reader.Plain

/-!
# What a reader does as a plain input

A plain input cannot report bytes and an error together, and tells the end of the
stream by handing out nothing.

* `Reader.plainRead_meets` — an error that came with bytes is latched again.
* `Reader.fillBuf_meets` — at most one filling, and only for want of bytes.
* `Reader.consume_meets` — no call at all.
-/

namespace BufferedStream

namespace Reader

variable {σ : Type} [ByteSource σ] {H : Halt → Prop} {sh : Shared}

/-! ## Reading -/

/-- The ways of reading as a plain input. -/
inductive ReadsPlain (room : Room) (r : Reader σ) :
    List Draw → Except IoError Grant → Reader σ → Prop
  | delivered {ds : List Draw} {g : Reading} {r₁ : Reader σ} (hr : r.ReadsInto room ds g r₁)
      (hcount : 0 < g.count) : ReadsPlain room r ds (.ok g.toGrant) (r₁.latch g.fault)
  | ended {ds : List Draw} {g : Reading} {r₁ : Reader σ} (hr : r.ReadsInto room ds g r₁)
      (hcount : g.count = 0) (hfault : g.fault = none ∨ g.fault = some .eof) :
      ReadsPlain room r ds (.ok ⟨[], 0⟩) r₁
  | failed {ds : List Draw} {g : Reading} {r₁ : Reader σ} {e : Error} (shared : Bool)
      (hr : r.ReadsInto room ds g r₁) (hcount : g.count = 0) (hfault : g.fault = some e)
      (he : e ≠ .eof) : ReadsPlain room r ds (.error (e.toIo shared)) r₁

omit [ByteSource σ] in
theorem failure_meets {e : Error} {post : IoError → Shared → Prop}
    (h : ∀ shared, post (e.toIo shared) sh) : Act.Meets H (failure e) sh post :=
  Act.meets_bind.mpr (Act.meets_isKept.mpr (h _))

theorem plainRead_meets [HonestSource H σ] {r : Reader σ} (h : r.WF) (room : Room) :
    Act.Meets H (r.plainRead room) sh fun (g, r') _ => ∃ ds, r.ReadsPlain room ds g r' := by
  refine Act.meets_bind.mpr ((read_meets h room).imp ?_)
  rintro ⟨g, r₁⟩ sh' ⟨ds, hr⟩
  dsimp only
  split
  · rename_i hcount
    exact ⟨ds, .delivered hr hcount⟩
  · rename_i hcount
    have h0 : g.count = 0 := Nat.eq_zero_of_not_pos hcount
    split
    · rename_i hfault
      exact ⟨ds, .ended hr h0 (.inl hfault)⟩
    · rename_i hfault
      exact ⟨ds, .ended hr h0 (.inr hfault)⟩
    · rename_i e he hfault
      refine Act.meets_bind.mpr (failure_meets fun shared => ?_)
      exact ⟨ds, .failed shared hr h0 hfault he⟩

omit [ByteSource σ] in
theorem WF.latch {r : Reader σ} (h : r.WF) (fault : Option Error) : (r.latch fault).WF := by
  rw [latch_eq]
  exact ⟨h.1, h.2, h.3, h.4⟩

theorem ReadsPlain.wf {room : Room} {r r' : Reader σ} {ds : List Draw} {g : Except IoError Grant}
    (hg : r.ReadsPlain room ds g r') (h : r.WF) : r'.WF := by
  cases hg with
  | delivered hr => exact (hr.wf h).latch _
  | ended hr => exact hr.wf h
  | failed _ hr => exact hr.wf h

theorem ReadsPlain.calls {room : Room} {r r' : Reader σ} {ds : List Draw}
    {g : Except IoError Grant} (hg : r.ReadsPlain room ds g r') :
    Calls r.source ds r'.source := by
  cases hg with
  | delivered hr => rw [latch_eq]; exact hr.calls
  | ended hr => exact hr.calls
  | failed _ hr => exact hr.calls

/-! ## Access to the buffer -/

/-- The ways of showing the buffer. -/
inductive ShowsBuffer (r : Reader σ) : List Draw → Except IoError Bytes → Reader σ → Prop
  | shown {ds : List Draw} {r₁ : Reader σ} (hp : r.Pulled ds r₁)
      (hroom : ds ≠ [] → r.window.unread = []) (hne : r₁.window.unread ≠ []) :
      ShowsBuffer r ds (.ok r₁.window.unread) r₁
  | ended {ds : List Draw} {r₁ r₂ : Reader σ} (hp : r.Pulled ds r₁)
      (hroom : ds ≠ [] → r.window.unread = []) (hunread : r₁.window.unread = [])
      (hfault : r₁.fault = some .eof) (hs : r₁.Settles r₂) : ShowsBuffer r ds (.ok []) r₂.cleared
  | failed {ds : List Draw} {r₁ r₂ : Reader σ} {e : Error} (shared : Bool) (hp : r.Pulled ds r₁)
      (hroom : ds ≠ [] → r.window.unread = []) (hunread : r₁.window.unread = [])
      (hfault : r₁.fault = some e) (he : e ≠ .eof) (hs : r₁.Settles r₂) :
      ShowsBuffer r ds (.error (e.toIo shared)) r₂.cleared

omit [ByteSource σ] in
theorem Settles.fault_of_unread {r r' : Reader σ} (hs : r.Settles r')
    (hends : r.window.unread ≠ [] ∨ r.fault.isSome = true) (hunread : r.window.unread = []) :
    ∃ e, r.fault = some e ∧ r'.fault = some e := by
  obtain ⟨e, he⟩ := Option.isSome_iff_exists.mp (hends.resolve_left fun hne => hne hunread)
  exact ⟨e, he, hs.fault_eq.trans he⟩

theorem showBuffer_meets {r r₁ : Reader σ} {ds : List Draw} (hp : r.Pulled ds r₁)
    (hroom : ds ≠ [] → r.window.unread = [])
    (hends : r₁.window.unread ≠ [] ∨ r₁.fault.isSome = true) :
    Act.Meets H r₁.showBuffer sh fun (b, r') _ => ∃ ds, r.ShowsBuffer ds b r' := by
  unfold showBuffer
  split
  · rename_i hne
    exact ⟨ds, .shown hp hroom hne⟩
  · rename_i hunread
    have hunread := Decidable.of_not_not hunread
    refine Act.meets_bind.mpr ((settle_meets r₁).imp ?_)
    intro r₂ sh₂ hs
    obtain ⟨e, he, he₂⟩ := hs.fault_of_unread hends hunread
    dsimp only
    split
    · rename_i hnone
      rw [hnone] at he₂
      cases he₂
    · rename_i heof
      rw [heof] at he₂
      exact ⟨ds, .ended hp hroom hunread (he.trans he₂.symm) hs⟩
    · rename_i e' hne he'
      rw [he', Option.some.injEq] at he₂
      subst he₂
      refine Act.meets_bind.mpr (failure_meets fun shared => ?_)
      exact ⟨ds, .failed shared hp hroom hunread he hne hs⟩

theorem fillBuf_meets [HonestSource H σ] {r : Reader σ} (h : r.WF) :
    Act.Meets H r.fillBuf sh fun (b, r') _ => ∃ ds, r.ShowsBuffer ds b r' := by
  unfold fillBuf
  split
  · rename_i hempty
    simp only [Bool.and_eq_true, decide_eq_true_eq, Option.isNone_iff_eq_none] at hempty
    obtain ⟨hunread, hfault⟩ := hempty
    have hroom : r.buffered < r.size := by
      rw [buffered, hunread]
      exact h.size_pos
    refine Act.meets_bind.mpr ((fill_meets r).imp ?_)
    rintro r₁ sh₁ ⟨ds, hf⟩
    refine showBuffer_meets (hf.pulled h hfault) (fun _ => hunread) ?_
    rcases hf.progress hroom with hsome | hlt
    · exact .inr hsome
    · exact .inl (List.ne_nil_of_length_pos (Nat.zero_lt_of_lt hlt))
  · rename_i hempty
    simp only [Bool.and_eq_true, decide_eq_true_eq, Option.isNone_iff_eq_none, not_and] at hempty
    refine showBuffer_meets (.refl h) (by simp) ?_
    by_cases hunread : r.window.unread = []
    · exact .inr (Option.isSome_iff_ne_none.mpr (hempty hunread))
    · exact .inl hunread

theorem ShowsBuffer.wf {r r' : Reader σ} {ds : List Draw} {b : Except IoError Bytes}
    (hb : r.ShowsBuffer ds b r') : r'.WF := by
  cases hb with
  | shown hp => exact hp.wf
  | ended hp _ _ _ hs => exact (hs.wf hp.wf).cleared
  | failed _ hp _ _ _ _ hs => exact (hs.wf hp.wf).cleared

theorem ShowsBuffer.calls {r r' : Reader σ} {ds : List Draw} {b : Except IoError Bytes}
    (hb : r.ShowsBuffer ds b r') : Calls r.source ds r'.source := by
  cases hb with
  | shown hp => exact hp.calls
  | ended hp _ _ _ hs => exact hs.source_eq ▸ hp.calls
  | failed _ hp _ _ _ _ hs => exact hs.source_eq ▸ hp.calls

/-- The ways of consuming up to `n` bytes. -/
inductive Consumes (n : Nat) (r : Reader σ) : Reader σ → Prop
  | nothing (h : r.window.unread.take n = []) : Consumes n r r
  | taken {r' : Reader σ} (h : r.window.unread.take n ≠ []) (hs : (r.delivering n).Settles r') :
      Consumes n r r'

omit [ByteSource σ] in
theorem consume_meets (r : Reader σ) (n : Nat) :
    Act.Meets H (r.consume n) sh fun r' _ => r.Consumes n r' := by
  unfold consume
  dsimp only
  split
  · rename_i h
    exact .nothing h
  · rename_i h
    refine (settle_meets _).imp ?_
    intro r' sh' hs
    exact .taken h hs

omit [ByteSource σ] in
theorem Consumes.source_eq {n : Nat} {r r' : Reader σ} (hc : r.Consumes n r') :
    r'.source = r.source := by
  cases hc with
  | nothing => rfl
  | taken _ hs => exact hs.source_eq

omit [ByteSource σ] in
theorem Consumes.wf {n : Nat} {r r' : Reader σ} (hc : r.Consumes n r') (h : r.WF) : r'.WF := by
  cases hc with
  | nothing => exact h
  | taken _ hs => exact hs.wf (h.delivering n)

end Reader

end BufferedStream
