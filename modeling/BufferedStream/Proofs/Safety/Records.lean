import BufferedStream.Proofs.Safety.Bytes

/-!
# Records are scanned within bounds

A record that is handed out is a slice of the block that ends at the cursor
(`Reader.HandedOut`): that is what lets its last byte be looked at, and a carriage
return at its end be held back.

* `Reader.scanUntil_safe` — what a scan hands out ends at the cursor.
* `Reader.readSlice_safe`, `Reader.readLine_safe`, `Reader.readBytes_safe`,
  `Reader.plainRead_safe`, `Reader.fillBuf_safe`, `Reader.consume_safe` — one for each operation.
-/

namespace BufferedStream.Reader

open Act (Upholds)
open Guarded (Safe safe_check safe_of safe_pure)

variable {σ : Type} {r : Reader σ} [ByteSource σ] [AnsweringSource σ]

/-! ## Handing out -/

/-- The bytes end at the cursor of the reader, which is secure. -/
structure HandedOut (b : Bytes) (r : Reader σ) : Prop extends Secure r where
  length_le : b.length ≤ r.lo

theorem Secure.handOut (h : r.Secure) {n : Nat} (hn : n ≤ r.buffered) :
    HandedOut (r.handOut n).1.bytes (r.handOut n).2 where
  toSecure := h.advance n r.lastByte r.lastRune
  length_le := by
    have hlo : (r.handOut n).2.lo = r.lo + n := lo_advance r hn
    rw [hlo]
    exact Nat.le_trans (List.length_take_le _ _) (Nat.le_add_left n r.lo)

theorem Secure.handOutAll (h : r.Secure) (fault : Option Error) :
    HandedOut (r.handOutAll fault).1.bytes (r.handOutAll fault).2 where
  toSecure := h.exhaust
  length_le := Nat.le_trans (Nat.le_add_left _ _) (Nat.le_of_eq (lo_exhaust r).symm)

namespace HandedOut

variable {b : Bytes}

/-- The last byte handed out, if there is one, is in the block. -/
theorem last (h : HandedOut b r) (hne : b ≠ []) : 0 < r.lo ∧ r.lo ≤ r.extent :=
  ⟨Nat.lt_of_lt_of_le (List.length_pos_iff.mpr hne) h.length_le,
    Nat.le_trans (lo_le_hi r) h.inBounds.hi_le_extent⟩

theorem noteDelivered_eq (h : HandedOut b r) :
    Checked.noteDelivered b r = pure (r.noteDelivered b) := by
  unfold Checked.noteDelivered Checked.back Checked.slice Checked.lastOf
  rw [Guarded.check_eq h.length_le, Guarded.check_eq ⟨Nat.sub_le _ _, Nat.le_trans (lo_le_hi r)
    h.inBounds.hi_le_extent⟩, Guarded.check_eq h.last]
  rfl

theorem holdBackReturn_eq (h : HandedOut b r) :
    Checked.holdBackReturn b r = pure (r.holdBackReturn b) := by
  unfold Checked.holdBackReturn Checked.lastOf
  rw [Guarded.check_eq h.last, Guarded.check_eq fun hreturn => (h.last ?_).1]
  · rfl
  · rintro rfl
    cases hreturn

/-- A carriage return that is held back is not handed out, and unread again. -/
theorem holdBackReturn (h : HandedOut b r) :
    HandedOut (r.holdBackReturn b).1 (r.holdBackReturn b).2 := by
  unfold Reader.holdBackReturn
  split
  · refine ⟨h.retreat 1 r.lastByte r.lastRune, ?_⟩
    have hle := h.length_le
    rw [lo_retreat, List.length_dropLast]
    omega
  · exact h

theorem noteDelivered (h : HandedOut b r) : (r.noteDelivered b).Secure := ⟨h.inBounds, h.source⟩

theorem settles {r' : Reader σ} (h : HandedOut b r) (hnil : b = []) (hs : r.Settles r') :
    HandedOut b r' :=
  ⟨h.toSecure.settles hs, by rw [hnil]; exact Nat.zero_le _⟩

theorem cleared (h : HandedOut b r) : HandedOut b r.cleared := ⟨h.toSecure.cleared, h.length_le⟩

end HandedOut

/-! ## Scans -/

omit [AnsweringSource σ] in
/-- What is found among the unread bytes ends no later than they do. -/
theorem idxOf?_lt {delim : UInt8} {b : Bytes} {i : Nat} (h : b.idxOf? delim = some i) :
    i < b.length := by
  rw [List.idxOf?, List.findIdx?_eq_some_iff_getElem] at h
  exact h.1

theorem scanRounds_latched_safe (delim : UInt8) {e : Error} (hfault : r.fault = some e)
    (rounds : Nat) (h : r.Secure) :
    Safe (Checked.scanRounds delim rounds r) (r.scanRounds delim rounds) fun (p, r') =>
      HandedOut p.bytes r' := by
  have hall := h.handOutAll (some e)
  unfold Checked.scanRounds scanRounds
  rw [hfault]
  dsimp only
  refine .ite (fun hnil => ?_) fun _ => safe_pure hall.cleared
  exact (settle_safe hall.toSecure).bind fun r' hs => safe_pure (hall.settles hnil hs.2).cleared

/-- By induction on the rounds: a filling leaves what was looked at before in front of what is
new. -/
theorem scanRounds_safe (delim : UInt8) (rounds : Nat) (h : r.Secure) :
    Safe (Checked.scanRounds delim rounds r) (r.scanRounds delim rounds) fun (p, r') =>
      HandedOut p.bytes r' := by
  induction rounds generalizing r with
  | zero =>
    cases hfault : r.fault with
    | some e => exact scanRounds_latched_safe delim hfault 0 h
    | none =>
      unfold Checked.scanRounds scanRounds
      rw [hfault]
      exact safe_of Act.upholds_exhausted
  | succ rounds ih =>
    cases hfault : r.fault with
    | some e => exact scanRounds_latched_safe delim hfault (rounds + 1) h
    | none =>
      unfold Checked.scanRounds scanRounds
      rw [hfault]
      dsimp only
      refine (fill_safe h).bind ?_
      rintro r₁ ⟨h₁, hkept⟩
      have hhi : r₁.buffered ≤ r₁.hi := Nat.le_add_left _ _
      refine safe_check (h₁.inBounds.slice (Nat.le_trans hkept hhi) (Nat.le_refl _)) ?_
      cases hfound : (r₁.window.unread.drop r.buffered).idxOf? delim with
      | some i =>
        have hlt : i < r₁.buffered - r.buffered :=
          Nat.lt_of_lt_of_eq (idxOf?_lt hfound) List.length_drop
        have hn : r.buffered + i + 1 ≤ r₁.buffered := by omega
        exact safe_check hn (safe_pure (h₁.toSecure.handOut hn))
      | none =>
        exact .ite (fun _ => safe_pure (h₁.toSecure.handOutAll _)) fun _ => ih h₁.toSecure

/-- **A scan is safe**, and what it hands out ends at the cursor. -/
theorem scanUntil_safe (delim : UInt8) (h : r.Secure) :
    Safe (Checked.scanUntil delim r) (r.scanUntil delim) fun (p, r') => HandedOut p.bytes r' := by
  unfold Checked.scanUntil scanUntil
  refine safe_check (h.inBounds.slice (lo_le_hi r) (Nat.le_refl _)) ?_
  cases hfound : r.window.unread.idxOf? delim with
  | some i =>
    have hn : i + 1 ≤ r.buffered := idxOf?_lt hfound
    exact safe_check hn (safe_pure (h.handOut hn))
  | none => exact scanRounds_safe delim _ h

theorem readSlice_safe (delim : UInt8) (h : r.Secure) :
    Safe (Checked.readSlice delim r) (r.readSlice delim) fun (_, r') => r'.Secure := by
  refine (scanUntil_safe delim h).bind ?_
  rintro ⟨p, r'⟩ h'
  dsimp only at h' ⊢
  rw [h'.noteDelivered_eq]
  exact safe_pure h'.noteDelivered

theorem readLine_safe (h : r.Secure) :
    Safe (Checked.readLine r) r.readLine fun (_, r') => r'.Secure := by
  refine (scanUntil_safe newline h).bind ?_
  rintro ⟨p, r'⟩ h'
  dsimp only at h' ⊢
  by_cases hfull : p.fault = some .bufferFull
  · have hheld := h'.holdBackReturn
    rw [hfull, h'.holdBackReturn_eq, pure_bind, hheld.noteDelivered_eq]
    exact safe_pure hheld.noteDelivered
  · simp only
    refine .ite (fun _ => ?_) fun _ => ?_
    · cases p.fault with
      | some e => exact safe_pure (h'.withMemory _ _ _)
      | none => exact safe_pure (h'.withMemory _ _ _)
    · rw [h'.noteDelivered_eq]
      exact safe_pure h'.noteDelivered

/-- By induction on the rounds. -/
theorem readBytesRounds_safe (delim : UInt8) (rounds : Nat) (collected : Bytes) (h : r.Secure) :
    Safe (Checked.readBytesRounds delim rounds collected r)
      (r.readBytesRounds delim rounds collected) fun (_, r') => r'.Secure := by
  induction rounds generalizing r collected with
  | zero => exact safe_of Act.upholds_exhausted
  | succ rounds ih =>
    refine (readSlice_safe delim h).bind ?_
    rintro ⟨p, r'⟩ h'
    dsimp only
    by_cases hfull : p.fault = some .bufferFull
    · rw [hfull]
      exact ih _ h'
    · simp only
      exact safe_pure h'

theorem readBytes_safe (delim : UInt8) (h : r.Secure) :
    Safe (Checked.readBytes delim r) (r.readBytes delim) fun (_, r') => r'.Secure :=
  (safe_of Act.upholds_patience).bind fun rounds _ => readBytesRounds_safe delim rounds [] h

theorem readString_safe (delim : UInt8) (h : r.Secure) :
    Safe (Checked.readString delim r) (r.readString delim) fun (_, r') => r'.Secure := by
  refine (readBytes_safe delim h).bind ?_
  rintro ⟨p, r'⟩ h'
  exact (settle_safe h').bind fun r₁ h₁ => safe_pure h₁.1

/-! ## As a plain input -/

omit [ByteSource σ] [AnsweringSource σ] in
theorem failure_upholds (e : Error) : (failure e).Upholds fun _ => True :=
  (Act.upholds_isKept e).bind fun _ _ => Act.upholds_pure trivial

theorem plainRead_safe (room : Room) (h : r.Secure) :
    Safe (Checked.plainRead room r) (r.plainRead room) fun (_, r') => r'.Secure := by
  refine (read_safe room h).bind ?_
  rintro ⟨g, r'⟩ ⟨-, h'⟩
  refine safe_of (.ite (fun _ => Act.upholds_pure (h'.latch _)) fun _ => ?_)
  dsimp only
  split
  · exact Act.upholds_pure h'
  · exact Act.upholds_pure h'
  · exact (failure_upholds _).bind fun _ _ => Act.upholds_pure h'

theorem showBuffer_safe (h : r.Secure) :
    Safe (Checked.showBuffer r) r.showBuffer fun (_, r') => r'.Secure := by
  unfold Checked.showBuffer showBuffer
  refine .ite (fun _ => ?_) fun _ => ?_
  · exact safe_check (h.inBounds.slice (lo_le_hi r) (Nat.le_refl _)) (safe_pure h)
  · refine safe_of ((settle_upholds r).bind fun r₁ hs => ?_)
    have h₁ := (h.settles hs).cleared
    split
    · exact Act.upholds_pure h₁
    · exact Act.upholds_pure h₁
    · exact (failure_upholds _).bind fun _ _ => Act.upholds_pure h₁

theorem fillBuf_safe (h : r.Secure) :
    Safe (Checked.fillBuf r) r.fillBuf fun (_, r') => r'.Secure := by
  unfold Checked.fillBuf fillBuf
  refine .ite (fun _ => ?_) fun _ => showBuffer_safe h
  exact (fill_safe h).bind fun r₁ h₁ => showBuffer_safe h₁.1.toSecure

theorem consume_safe (n : Nat) (h : r.Secure) :
    Safe (Checked.consume n r) (r.consume n) fun r' => r'.Secure := by
  unfold Checked.consume consume
  dsimp only
  refine .ite (fun _ => safe_pure h) fun hne => ?_
  refine safe_check (List.length_take_le' _ _) (safe_check ?_ ?_)
  · have hpos : 0 < { r with window := r.window.advance n }.lo := by
      have hlo : { r with window := r.window.advance n }.lo =
          (r.window.unread.take n).length + r.lo := by
        simp only [lo, Window.advance, List.length_append, List.length_reverse]
      have htaken := List.length_pos_iff.mpr hne
      omega
    exact ⟨hpos, Nat.le_trans (lo_le_hi _) (h.inBounds.advance n).hi_le_extent⟩
  · exact (settle_safe (h.advance n _ none)).imp fun _ => And.left

end BufferedStream.Reader
