import BufferedStream.Proofs.Safety.Bounds
import BufferedStream.Proofs.Safety.CheckedReader
import BufferedStream.Proofs.Safety.Endpoint

/-!
# A reader fills its buffer within bounds

The indices that a reader keeps count of are *in bounds* (`Reader.InBounds`): its
unread bytes end within the buffer, the buffer ends within the block, and without a
block there are no bytes at all.  From that every access of a filling is in range,
and the filling leaves the reader in bounds, whatever an answering source reports.

* `Reader.InBounds.hi_le_extent` — what has been read ends within the block.
* `Reader.fill_safe`, `Reader.readOnce_safe`, `Reader.ensure_safe` — filling is safe.
-/

namespace BufferedStream.Reader

open Act (Upholds)
open Guarded (Safe safe_check safe_of safe_pure)

variable {σ : Type} {r r' : Reader σ}

/-! ## Readers in bounds -/

/-- The unread bytes end within the buffer, and the buffer within the block; without
a block no byte has been read. -/
def InBounds (r : Reader σ) : Prop := Bounds minReadBufferSize r.hi r.size r.held

theorem lo_le_hi (r : Reader σ) : r.lo ≤ r.hi := Nat.le_add_right _ _

namespace InBounds

theorem hi_le_extent (h : r.InBounds) : r.hi ≤ r.extent := h.filled_le_extent

/-- What ends before the unread bytes do is a slice of the block. -/
theorem slice (h : r.InBounds) {i j : Nat} (hij : i ≤ j) (hj : j ≤ r.hi) :
    i ≤ j ∧ j ≤ r.extent :=
  ⟨hij, Nat.le_trans hj h.hi_le_extent⟩

theorem size_pos (h : r.InBounds) : 0 < r.size := Nat.lt_of_lt_of_le (by decide) h.least_le

theorem buffered_le (h : r.InBounds) : r.buffered ≤ r.size :=
  Nat.le_trans (Nat.le_add_left _ _) h.filled_le

/-- Moving the cursor leaves the bytes where they are. -/
theorem of_hi_eq (h : r.InBounds) (hhi : r'.hi = r.hi) (hsize : r'.size = r.size)
    (hheld : r'.held = r.held) : r'.InBounds := by
  unfold InBounds
  rw [hhi, hsize, hheld]
  exact h

end InBounds

theorem inBounds_withCapacity (s : σ) (size : Nat) (pool : PoolId) :
    (withCapacity s size pool).InBounds where
  least_le := Nat.le_max_right ..
  filled_le := Nat.zero_le _
  size_le _ h := nomatch h
  filled_eq_zero _ := rfl

/-! ## Moves of the window -/

section Moves

variable (r)

theorem hi_advance (n : Nat) : { r with window := r.window.advance n }.hi = r.hi := by
  simp only [hi, lo, buffered, Window.advance, List.length_append, List.length_reverse,
    List.length_take, List.length_drop]
  omega

theorem hi_retreat (n : Nat) : { r with window := r.window.retreat n }.hi = r.hi := by
  simp only [hi, lo, buffered, Window.retreat, List.length_append, List.length_reverse,
    List.length_take, List.length_drop]
  omega

theorem hi_exhaust : { r with window := r.window.exhaust }.hi = r.hi := by
  simp only [hi, lo, buffered, Window.exhaust, List.length_append, List.length_reverse,
    List.length_nil]
  omega

theorem lo_advance {n : Nat} (hn : n ≤ r.buffered) :
    { r with window := r.window.advance n }.lo = r.lo + n := by
  simp only [lo, Window.advance, List.length_append, List.length_reverse, List.length_take,
    buffered] at hn ⊢
  omega

theorem lo_exhaust : { r with window := r.window.exhaust }.lo = r.hi := by
  simp only [lo, hi, buffered, Window.exhaust, List.length_append, List.length_reverse]
  omega

theorem lo_retreat (n : Nat) : { r with window := r.window.retreat n }.lo = r.lo - n := by
  simp only [lo, Window.retreat, List.length_drop]

theorem buffered_receive (g : Grant) :
    { r with window := r.window.receive g }.buffered = r.buffered + g.count := by
  simp only [buffered, Window.receive, List.length_append, Grant.bytesIn,
    Bytes.length_zeroPadded]

end Moves

theorem InBounds.advance (h : r.InBounds) (n : Nat) :
    { r with window := r.window.advance n }.InBounds :=
  h.of_hi_eq (hi_advance r n) rfl rfl

theorem InBounds.retreat (h : r.InBounds) (n : Nat) :
    { r with window := r.window.retreat n }.InBounds :=
  h.of_hi_eq (hi_retreat r n) rfl rfl

theorem InBounds.exhaust (h : r.InBounds) : { r with window := r.window.exhaust }.InBounds :=
  h.of_hi_eq (hi_exhaust r) rfl rfl

/-! ## The block -/

/-- A block is taken that the buffer fits into. -/
theorem acquire_upholds (h : r.InBounds) : r.acquire.Upholds fun r' =>
    r'.InBounds ∧ Holds r'.size r'.held ∧ ∃ length spare, r' = r.withBlock length spare := by
  unfold acquire
  split
  · rename_i length hheld
    refine Act.upholds_pure ⟨h, h.holds ?_, length, r.window.spare, by rw [withBlock, ← hheld]⟩
    rw [hheld]
    exact Option.some_ne_none length
  · refine (Act.upholds_acquire r.pool r.size).bind fun b hle => Act.upholds_pure ?_
    have hholds : Holds r.size (some b.length) := ⟨b.length, rfl, hle⟩
    exact ⟨hholds.bounds h.least_le h.filled_le, hholds, b.length, b.front, rfl⟩

theorem settle_upholds (r : Reader σ) : r.settle.Upholds r.Settles := by
  unfold settle
  refine .ite (fun hend => ?_) fun _ => Act.upholds_pure .keeps
  simp only [Bool.and_eq_true, decide_eq_true_eq] at hend
  split
  · exact Act.upholds_pure .keeps
  · refine (Act.upholds_bufferSize _).bind fun length _ => ?_
    refine .ite (fun _ => ?_) fun _ => Act.upholds_pure .keeps
    refine (Act.upholds_release _ _).bind fun rejected _ => ?_
    cases rejected with
    | none => exact Act.upholds_pure (.returns hend.1 (eq_eof_of_isEof hend.2))
    | some b => exact Act.upholds_pure .keeps

theorem InBounds.settles (h : r.InBounds) (hs : r.Settles r') : r'.InBounds := by
  cases hs with
  | keeps => exact h
  | returns => exact ⟨h.least_le, Nat.zero_le _, fun _ h => (by cases h), fun _ => rfl⟩

theorem surrender_upholds (r : Reader σ) : r.surrender.Upholds fun _ => True := by
  unfold surrender
  split
  · exact (Act.upholds_release _ _).bind fun _ _ => Act.upholds_pure trivial
  · exact Act.upholds_pure trivial

theorem InBounds.latch (h : r.InBounds) (fault : Option Error) : (r.latch fault).InBounds := by
  cases fault <;> exact h

/-! ## Secure readers -/

variable [ByteSource σ] [AnsweringSource σ]

/-- The reader is in bounds, and its source is in a state in which it may be. -/
structure Secure (r : Reader σ) : Prop where
  inBounds : r.InBounds
  source : AnsweringSource.Sound r.source

namespace Secure

/-- Remembering something else, or another error, changes nothing. -/
theorem withMemory (h : r.Secure) (fault : Option Error) (lastByte : Option UInt8)
    (lastRune : Option Nat) : { r with fault, lastByte, lastRune }.Secure :=
  ⟨h.inBounds, h.source⟩

theorem latch (h : r.Secure) (fault : Option Error) : (r.latch fault).Secure :=
  ⟨h.inBounds.latch fault, by rw [latch_eq]; exact h.source⟩

theorem cleared (h : r.Secure) : r.cleared.Secure := ⟨h.inBounds, h.source⟩

theorem settles (h : r.Secure) (hs : r.Settles r') : r'.Secure :=
  ⟨h.inBounds.settles hs, by cases hs <;> exact h.source⟩

theorem advance (h : r.Secure) (n : Nat) (lastByte : Option UInt8) (lastRune : Option Nat) :
    { r with window := r.window.advance n, lastByte, lastRune }.Secure :=
  ⟨h.inBounds.advance n, h.source⟩

theorem retreat (h : r.Secure) (n : Nat) (lastByte : Option UInt8) (lastRune : Option Nat) :
    { r with window := r.window.retreat n, lastByte, lastRune }.Secure :=
  ⟨h.inBounds.retreat n, h.source⟩

theorem exhaust (h : r.Secure) : { r with window := r.window.exhaust }.Secure :=
  ⟨h.inBounds.exhaust, h.source⟩

end Secure

theorem acquire_safe (h : r.Secure) : Safe (.of r.acquire) r.acquire fun r' =>
    r'.Secure ∧ Holds r'.size r'.held ∧ ∃ length spare, r' = r.withBlock length spare := by
  refine safe_of ((acquire_upholds h.inBounds).imp ?_)
  rintro r' ⟨hin, hholds, length, spare, rfl⟩
  exact ⟨⟨hin, h.source⟩, hholds, length, spare, rfl⟩

theorem settle_safe (h : r.Secure) : Safe (.of r.settle) r.settle fun r' =>
    r'.Secure ∧ r.Settles r' :=
  safe_of ((settle_upholds r).imp fun _ hs => ⟨h.settles hs, hs⟩)

/-! ## Filling -/

/-- A source that reports more than there is room for is turned down at once. -/
theorem draw_upholds (hs : AnsweringSource.Sound r.source) (room : Room) :
    (r.draw room).Upholds fun (g, r') => g.count ≤ room.size ∧
      ∃ s, AnsweringSource.Sound s ∧ r' = { r with source := s } := by
  refine (AnsweringSource.read_answers room hs).bind ?_ ?_
  · rintro ⟨g, s⟩ hle hs
    refine (Act.upholds_require hle _).bind fun _ _ => ?_
    exact Act.upholds_pure ⟨hle, s, hs, rfl⟩
  · exact fun _ hover => ⟨_, .inl rfl, Act.require_bind_of_not hover _ _⟩

/-- The reader holds a block, and its unread bytes start where the block does. -/
structure Refilled (r : Reader σ) : Prop extends Secure r where
  holds : Holds r.size r.held
  lo_eq : r.lo = 0

theorem Refilled.latch (h : Refilled r) (fault : Option Error) : Refilled (r.latch fault) where
  toSecure := h.toSecure.latch fault
  holds := by rw [latch_eq]; exact h.holds
  lo_eq := by rw [latch_eq]; exact h.lo_eq

/-- By induction on the rounds: what is received goes into the room behind the unread
bytes. -/
theorem fillRounds_safe (rounds : Nat) {r : Reader σ} (h : Refilled r) {n : Nat}
    (hn : n ≤ r.buffered) :
    Safe (Checked.fillRounds rounds r) (fillRounds rounds r) fun r' =>
      Refilled r' ∧ n ≤ r'.buffered := by
  induction rounds generalizing r with
  | zero => exact safe_pure ⟨h.latch _, hn⟩
  | succ rounds ih =>
    rw [Checked.fillRounds, fillRounds]
    refine safe_check ⟨h.inBounds.filled_le, h.holds.size_le_extent⟩ ?_
    refine (safe_of (draw_upholds h.source _)).bind ?_
    rintro ⟨g, r₁⟩ ⟨hle, s, hs, rfl⟩
    have hbuffered := buffered_receive r g.toGrant
    have hreceived : Refilled { r with source := s, window := r.window.receive g.toGrant } := by
      refine ⟨⟨h.holds.bounds h.inBounds.least_le ?_, hs⟩, h.holds, h.lo_eq⟩
      have hlo := h.lo_eq
      have hle' := h.inBounds.buffered_le
      show r.lo + { r with window := r.window.receive g.toGrant }.buffered ≤ r.size
      dsimp only at hle
      omega
    have hn' : n ≤ { r with source := s, window := r.window.receive g.toGrant }.buffered :=
      Nat.le_trans (Nat.le_trans hn (Nat.le_add_right _ _)) (Nat.le_of_eq hbuffered.symm)
    refine .ite (fun _ => safe_pure ?_) fun _ => ih hreceived hn'
    exact ⟨hreceived.latch _, by rw [latch_eq]; exact hn'⟩

/-- **A filling is safe.**  It starts the block with the bytes that were unread. -/
theorem fill_safe (h : r.Secure) : Safe (Checked.fill r) r.fill fun r' =>
    Refilled r' ∧ r.buffered ≤ r'.buffered := by
  refine (acquire_safe h).bind ?_
  rintro r₁ ⟨h₁, hholds, heq⟩
  refine safe_check (h₁.inBounds.slice (lo_le_hi r₁) (Nat.le_refl _)) ?_
  have hslid : Refilled { r₁ with window := r₁.window.slide } := by
    refine ⟨⟨hholds.bounds h₁.inBounds.least_le ?_, h₁.source⟩, hholds, rfl⟩
    exact Nat.le_trans (Nat.le_of_eq (Nat.zero_add _)) h₁.inBounds.buffered_le
  refine fillRounds_safe _ hslid (Nat.le_of_eq ?_)
  obtain ⟨length, spare, rfl⟩ := heq
  rfl

theorem readOnce_safe (h : r.Secure) :
    Safe (Checked.readOnce r) r.readOnce fun r' => r'.Secure := by
  refine (acquire_safe h).bind ?_
  rintro r₁ ⟨h₁, hholds, -⟩
  refine safe_check ⟨Nat.zero_le _, hholds.size_le_extent⟩ ?_
  dsimp only
  have hsource : AnsweringSource.Sound { r₁ with window := r₁.window.reset }.source := h₁.source
  refine (safe_of (draw_upholds hsource _)).bind ?_
  rintro ⟨g, r₂⟩ ⟨hle, s, hs, rfl⟩
  have hreceived : Secure { r₁ with source := s, window := r₁.window.reset.receive g.toGrant } := by
    refine ⟨hholds.bounds h₁.inBounds.least_le ?_, hs⟩
    -- with nothing unread, what is received is all there is
    have hbuffered := buffered_receive { r₁ with window := r₁.window.reset } g.toGrant
    refine Nat.le_trans (Nat.le_of_eq ((Nat.zero_add _).trans hbuffered)) ?_
    exact Nat.le_trans (Nat.le_of_eq (Nat.zero_add _)) hle
  exact safe_pure (hreceived.latch _)

/-- By induction on the rounds. -/
theorem fillWhile_safe (wanting : Bytes → Bool) (rounds : Nat) (h : r.Secure) :
    Safe (Checked.fillWhile wanting rounds r) (r.fillWhile wanting rounds) fun r' => r'.Secure := by
  induction rounds generalizing r with
  | zero => exact safe_pure h
  | succ rounds ih =>
    rw [Checked.fillWhile, fillWhile]
    refine safe_check (h.inBounds.slice (lo_le_hi r) (Nat.le_refl _)) ?_
    refine .ite (fun _ => ?_) fun _ => safe_pure h
    exact (fill_safe h).bind fun r' h' => ih h'.1.toSecure

theorem ensure_safe (n : Nat) (h : r.Secure) :
    Safe (Checked.ensure n r) (r.ensure n) fun r' => r'.Secure :=
  fillWhile_safe _ n h

end BufferedStream.Reader
