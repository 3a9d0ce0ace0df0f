import BufferedStream.Proofs.Stack.Layer

/-!
# A reader is a layer

A reader is sound if it has latched the end only over a source that has nothing
left.  Reading from a sound reader keeps it sound, even without room, when the
latched end is let go of.

* `Reader.Pulled.sound`, `Reader.Pulled.stalled` — pulling from the layer below, with
  room and without.
* `Reader.ReadsInto.serves` — a reader over a layer is a layer.
* `Stack` — readers upon readers, to any height.
-/

namespace BufferedStream

namespace Reader

variable {σ : Type} [ByteSource σ] [Layer σ] {r r' r₁ : Reader σ} {ds : List Draw}

/-! ## Soundness -/

/-- The bytes that remain: those unread, and those of the source. -/
def remaining (r : Reader σ) : Bytes := r.window.unread ++ Layer.remaining r.source

/-- The end is latched only when the source has nothing left. -/
structure Sound (r : Reader σ) : Prop where
  wf : r.WF
  source : Layer.Sound r.source
  fault : r.fault = none ∨ (r.fault = some .eof ∧ Layer.remaining r.source = [])

/-- The end is latched although the source has bytes left. -/
structure Premature (r : Reader σ) : Prop where
  wf : r.WF
  source : Layer.Sound r.source
  fault : r.fault = some .eof
  remaining : Layer.remaining r.source ≠ []

/-- The end is latched behind bytes that are still unread. -/
def Hasty (r : Reader σ) : Prop := r.fault = some .eof ∧ r.window.unread ≠ []

theorem sound_withCapacity {s : σ} (h : Layer.Sound s) (size : Nat) (pool : PoolId) :
    (withCapacity s size pool).Sound where
  wf := wf_withCapacity s size pool
  source := h
  fault := .inl rfl

namespace Sound

theorem congr (h : r.Sound) (hwf : r'.WF) (hsource : r'.source = r.source)
    (hfault : r'.fault = none ∨ r'.fault = r.fault) : r'.Sound where
  wf := hwf
  source := hsource ▸ h.source
  fault := by
    rcases hfault with hnone | heq
    · exact .inl hnone
    · rw [heq, hsource]
      exact h.fault

theorem fault_eq (h : r.Sound) {e : Error} (he : r.fault = some e) :
    e = .eof ∧ Layer.remaining r.source = [] := by
  rcases h.fault with hnone | ⟨heof, hend⟩
  · rw [hnone] at he
    cases he
  · exact ⟨Option.some.inj (he.symm.trans heof), hend⟩

theorem forgetRune (h : r.Sound) : ({ r with lastRune := none } : Reader σ).Sound :=
  h.congr h.wf.forgetRune rfl (.inr rfl)

theorem room_of_unread (h : r.Sound) (hroom : ds ≠ [] → r.window.unread = [])
    (hds : ds ≠ []) : r.buffered < r.size := by
  rw [buffered, hroom hds]
  exact h.wf.size_pos

end Sound

/-! ## Pulling from the layer below -/

/-- **Pulling with room keeps the reader sound**, and moves bytes from the source to
the buffer. -/
theorem Pulled.sound (hp : r.Pulled ds r₁) (h : r.Sound)
    (hroom : ds ≠ [] → r.buffered < r.size) : r₁.Sound ∧ r₁.remaining = r.remaining := by
  obtain ⟨hsource, hremaining, harisen⟩ := Layer.calls_roomy hp.calls h.source (hp.roomy hroom)
  refine ⟨⟨hp.wf, hsource, ?_⟩, ?_⟩
  · by_cases hds : ds = []
    · subst hds
      rw [hp.fault_eq, hp.calls.nil_eq]
      exact h.fault
    · have harisen_eq := hp.arisen_eq hds
      cases hfault : r₁.fault with
      | none => exact .inl rfl
      | some e =>
        obtain ⟨rfl, hend⟩ := harisen e (by rw [← harisen_eq, hfault]; exact List.mem_singleton_self e)
        exact .inr ⟨rfl, hend⟩
  · rw [Reader.remaining, Reader.remaining, hp.unread, hremaining, List.append_assoc]

/-- Pulling with room brings a byte or latches the end. -/
theorem Pulled.fault_isSome (hp : r.Pulled ds r₁) (h : r.Sound)
    (hroom : ds ≠ [] → r.buffered < r.size) (hds : ds ≠ []) (hunread : r₁.window.unread = []) :
    r₁.fault.isSome = true := by
  have hnone := hp.unread
  rw [hunread, eq_comm, List.append_eq_nil_iff] at hnone
  have hne := Layer.arisen_ne_nil hp.calls h.source (hp.roomy hroom) hds hnone.2
  rw [← hp.arisen_eq hds] at hne
  cases hfault : r₁.fault with
  | none =>
    rw [hfault] at hne
    exact absurd rfl hne
  | some e => rfl

/-- **Pulling into a full buffer** moves nothing; the end is latched prematurely just
if the source was hasty. -/
theorem Pulled.stalled (hp : r.Pulled ds r₁) (h : r.Sound) (hds : ds ≠ [])
    (hfull : r.size ≤ r.buffered) :
    r₁.window.unread = r.window.unread ∧
      Layer.remaining r₁.source = Layer.remaining r.source ∧
      ((Layer.Hasty r.source ∧ r₁.Premature) ∨ (¬ Layer.Hasty r.source ∧ r₁.Sound)) := by
  have hroomless : ∀ d ∈ ds, d.offered = 0 := fun d hd => by
    have hpos := hp.offered_pos d hd
    omega
  obtain ⟨hsource, hremaining, hdrawn, honly, hhasty⟩ :=
    Layer.calls_roomless hp.calls h.source hroomless
  have hhasty := hhasty hds
  have harisen := hp.arisen_eq hds
  refine ⟨by rw [hp.unread, hdrawn, List.append_nil], hremaining, ?_⟩
  rw [← harisen] at honly hhasty
  by_cases hearly : r₁.fault = some .eof ∧ Layer.remaining r₁.source ≠ []
  · obtain ⟨heof, hne⟩ := hearly
    refine .inl ⟨hhasty.mp ⟨by rw [heof]; exact List.mem_singleton_self _, hne⟩, ?_⟩
    exact ⟨hp.wf, hsource, heof, hne⟩
  · refine .inr ⟨fun hh => hearly ?_, hp.wf, hsource, ?_⟩
    · obtain ⟨hmem, hne⟩ := hhasty.mpr hh
      exact ⟨Option.mem_toList.mp hmem, hne⟩
    · cases hfault : r₁.fault with
      | none => exact .inl rfl
      | some e =>
        obtain rfl := honly e (by rw [hfault]; exact List.mem_singleton_self e)
        exact .inr ⟨rfl, Decidable.not_not.mp fun hne => hearly ⟨hfault, hne⟩⟩

/-! ## Reading -/

/-- What a reader that is read from, with room for `n` bytes, answers and becomes. -/
structure Serves (n : Nat) (r : Reader σ) (g : Reading) (r' : Reader σ) : Prop where
  sound : r'.Sound
  remaining_eq : r.remaining = g.data ++ r'.remaining
  fault : g.fault = none ∨ g.fault = some .eof
  ends : 0 < n → (g.fault = some .eof → r'.remaining = []) ∧ (g.data = [] → g.fault = some .eof)
  hasty : n = 0 → (g.fault = some .eof ∧ r'.remaining ≠ [] ↔ r.Hasty) ∧ ¬ r'.Hasty

/-- Without room the latched end is let go of. -/
theorem Sound.serves_nothing (h : r.Sound) : r.Serves 0 (.ofBytes [] r.fault) r.cleared where
  sound := h.congr h.wf.cleared rfl (.inl rfl)
  remaining_eq := rfl
  fault := h.fault.imp id And.left
  ends h0 := absurd h0 (Nat.lt_irrefl 0)
  hasty _ := by
    refine ⟨and_congr_right fun heof => not_congr ?_, fun hh => by cases hh.1⟩
    show r.window.unread ++ Layer.remaining r.source = [] ↔ r.window.unread = []
    rw [(h.fault_eq heof).2, List.append_nil]

/-- Nothing is unread, and the room is offered to the source itself. -/
theorem Sound.serves_through (h : r.Sound) {n : Nat} {g : Reading} {s : σ} (hn : 0 < n)
    (hunread : r.window.unread = []) (hreads : ByteSource.Reads r.source n g s) (hwf : r'.WF)
    (hsource : r'.source = s) (hunread' : r'.window.unread = []) (hfault : r'.fault = none) :
    r.Serves n g r' := by
  obtain ⟨hsound, hremaining⟩ := Layer.remaining_of_reads h.source hreads
  have hafter : r'.remaining = Layer.remaining s := by
    rw [Reader.remaining, hsource, hunread', List.nil_append]
  exact
    { sound := ⟨hwf, hsource ▸ hsound, .inl hfault⟩
      remaining_eq := by rw [hafter, Reader.remaining, hunread, hremaining, List.nil_append]
      fault := Layer.fault_of_reads h.source hreads
      ends := fun _ => hafter ▸ Layer.ends_of_reads h.source hreads hn
      hasty := fun h0 => absurd h0 (Nat.ne_of_gt hn) }

/-- Unread bytes are handed out of the buffer. -/
theorem Sound.serves_delivered (h : r₁.Sound) {n : Nat} (hn : 0 < n)
    (hne : r₁.window.unread ≠ []) (hwf : r'.WF) (hs : (r₁.delivering n).Settles r') :
    r₁.Serves n (.ofBytes (r₁.window.unread.take n) none) r' where
  sound := h.congr hwf hs.source_eq (.inr hs.fault_eq)
  remaining_eq := by
    rw [Reader.remaining, Reader.remaining, hs.unread_eq, hs.source_eq]
    show _ = r₁.window.unread.take n ++ (r₁.window.unread.drop n ++ _)
    rw [← List.append_assoc, List.take_append_drop]
    rfl
  fault := .inl rfl
  ends _ := by
    refine ⟨by rintro ⟨⟩, fun hdata => ?_⟩
    rcases List.take_eq_nil_iff.mp hdata with h0 | hnil
    · exact absurd h0 (Nat.ne_of_gt hn)
    · exact absurd hnil hne
  hasty h0 := absurd h0 (Nat.ne_of_gt hn)

/-- Nothing is left, and the latched end is handed out. -/
theorem Sound.serves_dry {r₂ : Reader σ} (h : r₁.Sound) {n : Nat} (hn : 0 < n)
    (hunread : r₁.window.unread = []) (hends : r₁.fault.isSome = true) (hwf : r₂.cleared.WF)
    (hs : r₁.Settles r₂) : r₁.Serves n (.ofBytes [] r₁.fault) r₂.cleared := by
  obtain ⟨e, he⟩ := Option.isSome_iff_exists.mp hends
  obtain ⟨rfl, hend⟩ := h.fault_eq he
  have hafter : r₂.cleared.remaining = r₁.remaining := by
    rw [Reader.remaining, Reader.remaining, ← hs.unread_eq, ← hs.source_eq]
    rfl
  exact
    { sound := h.congr hwf hs.source_eq (.inl rfl)
      remaining_eq := hafter.symm
      fault := .inr he
      ends := fun _ => ⟨fun _ => by rw [hafter, Reader.remaining, hunread, hend]; rfl, fun _ => he⟩
      hasty := fun h0 => absurd h0 (Nat.ne_of_gt hn) }

/-- Pulling comes before serving, if the same bytes remain. -/
theorem Serves.of_remaining {n : Nat} {g : Reading} (h : r₁.Serves n g r') (hn : 0 < n)
    (hremaining : r₁.remaining = r.remaining) : r.Serves n g r' :=
  { h with
    remaining_eq := hremaining.symm.trans h.remaining_eq
    hasty := fun h0 => absurd h0 (Nat.ne_of_gt hn) }

/-- **A reader over a layer answers like one.** -/
theorem ReadsInto.serves {room : Room} {g : Reading} (hr : r.ReadsInto room ds g r')
    (h : r.Sound) : r.Serves room.size g r' := by
  have hwf := hr.wf h.wf
  cases hr with
  | nothing h0 =>
    rw [h0]
    exact h.serves_nothing
  | through hpos hunread hfault _ hreads _ =>
    refine h.serves_through hpos hunread hreads hwf ?_ ?_ ?_
    · split <;> rfl
    · split <;> exact hunread
    · split <;> exact hfault
  | delivered hpos hp hroom hne hs =>
    obtain ⟨hsound, hremaining⟩ := hp.sound h (h.room_of_unread hroom)
    exact (hsound.serves_delivered hpos hne hwf hs).of_remaining hpos hremaining
  | @dry _ r₁ _ hpos hp hroom hunread hs hends =>
    obtain ⟨hsound, hremaining⟩ := hp.sound h (h.room_of_unread hroom)
    have hsome : r₁.fault.isSome = true := by
      by_cases hds : ds = []
      · exact hends hds
      · exact hp.fault_isSome h (h.room_of_unread hroom) hds hunread
    exact (hsound.serves_dry hpos hunread hsome hwf hs).of_remaining hpos hremaining

/-- What a sound reader answers as a source. -/
theorem Sound.serves {n : Nat} {g : Reading} (h : r.Sound) (hreads : ByteSource.Reads r n g r') :
    r.Serves n g r' := by
  obtain ⟨room, sh, sh', rfl, hread⟩ := hreads
  obtain ⟨ds, hr⟩ := (read_meets (H := fun _ => False) h.wf room).of_ok hread
  exact hr.serves h

/-- A reader over a layer is a layer. -/
instance : Layer (Reader σ) where
  remaining := Reader.remaining
  Sound := Reader.Sound
  Hasty := Reader.Hasty
  remaining_of_hasty _ hh := List.append_ne_nil_of_left_ne_nil hh.2 _
  remaining_of_reads h hreads := ⟨(h.serves hreads).sound, (h.serves hreads).remaining_eq⟩
  fault_of_reads h hreads := (h.serves hreads).fault
  ends_of_reads h hreads := (h.serves hreads).ends
  hasty_of_reads h hreads := (h.serves hreads).hasty rfl

end Reader

/-! ## Stacks -/

/-- Readers upon readers upon a source. -/
def Stack (τ : Type) : (height : Nat) → Type
  | 0 => τ
  | height + 1 => Reader (Stack τ height)

namespace Stack

variable {τ : Type}

/-- How a stack is read. -/
@[reducible] def byteSource [ByteSource τ] : (height : Nat) → ByteSource (Stack τ height)
  | 0 => inferInstanceAs (ByteSource τ)
  | height + 1 =>
    have := byteSource height
    inferInstanceAs (ByteSource (Reader (Stack τ height)))

instance [ByteSource τ] (height : Nat) : ByteSource (Stack τ height) := byteSource height

/-- A stack over a finite source is a layer, whatever its height. -/
@[reducible] def layer [ByteSource τ] [FiniteSource τ] : (height : Nat) → Layer (Stack τ height)
  | 0 => inferInstanceAs (Layer τ)
  | height + 1 =>
    have := layer height
    inferInstanceAs (Layer (Reader (Stack τ height)))

instance [ByteSource τ] [FiniteSource τ] (height : Nat) : Layer (Stack τ height) := layer height

/-- A stack that has read nothing yet, with buffers of the given sizes and pools, the
outermost first. -/
def build (s : τ) : (buffers : List (Nat × PoolId)) → Stack τ buffers.length
  | [] => s
  | (size, pool) :: buffers => Reader.withCapacity (build s buffers) size pool

/-- By induction on the buffers. -/
theorem sound_build [ByteSource τ] [FiniteSource τ] (s : τ) (buffers : List (Nat × PoolId)) :
    Layer.Sound (build s buffers) := by
  induction buffers with
  | nil => exact trivial
  | cons buffer buffers ih => exact Reader.sound_withCapacity ih buffer.1 buffer.2

end Stack

end BufferedStream
