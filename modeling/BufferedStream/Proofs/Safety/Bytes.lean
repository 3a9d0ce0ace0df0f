import BufferedStream.Proofs.Rune
import BufferedStream.Proofs.Safety.Fill

/-!
# Bytes and runes are taken within bounds

The operations of a reader that look at bytes or take them, push them back, or move
to a larger buffer: every access is in range, and the reader stays secure.

* `Reader.peek_safe`, `Reader.read_safe`, `Reader.readByte_safe`, `Reader.unreadByte_safe`,
  `Reader.readRune_safe`, `Reader.unreadRune_safe`, `Reader.adapt_safe` — one for each operation.
-/

namespace BufferedStream.Reader

open Act (Upholds)
open Guarded (Safe safe_check safe_of safe_pure)

variable {σ : Type} {r : Reader σ} [ByteSource σ] [AnsweringSource σ]

/-! ## Bytes -/

theorem peek_safe (n : Nat) (h : r.Secure) :
    Safe (Checked.peek n r) (r.peek n) fun (_, r') => r'.Secure := by
  unfold Checked.peek peek
  dsimp only
  refine .ite (fun _ => safe_pure (h.withMemory _ _ _)) fun _ => ?_
  refine (ensure_safe n (h.withMemory _ _ none)).bind fun r₁ h₁ => ?_
  have hseen : r₁.lo + (r₁.window.unread.take n).length ≤ r₁.hi :=
    Nat.add_le_add_left (List.length_take_le' _ _) _
  refine safe_check (h₁.inBounds.slice (Nat.le_add_right _ _) hseen) ?_
  exact .ite (fun _ => safe_pure h₁.cleared) fun _ => safe_pure h₁

/-- At least one byte is delivered, and no more than there is room for. -/
theorem deliver_safe {n : Nat} (hn : 0 < n) (hne : r.window.unread ≠ []) (h : r.Secure) :
    Safe (Checked.deliver n r) (r.deliver n) fun (g, r') => g.count ≤ n ∧ r'.Secure := by
  have htaken : 0 < (r.window.unread.take n).length ∧ (r.window.unread.take n).length ≤ n := by
    have hpos := List.length_pos_iff.mpr hne
    rw [List.length_take]
    omega
  refine safe_check (h.inBounds.slice (lo_le_hi r) (Nat.le_refl _)) ?_
  refine safe_check (List.length_take_le' _ _) (safe_check htaken ?_)
  refine (settle_safe (h.advance n _ none)).bind fun r' h' => safe_pure ⟨htaken.2, h'.1⟩

theorem deliverOrReport_safe {n : Nat} (hn : 0 < n) (h : r.Secure) :
    Safe (Checked.deliverOrReport n r) (r.deliverOrReport n) fun (g, r') =>
      g.count ≤ n ∧ r'.Secure := by
  unfold Checked.deliverOrReport deliverOrReport
  refine .ite (fun hne => deliver_safe hn hne h) fun _ => ?_
  exact (settle_safe h).bind fun r' h' => safe_pure ⟨Nat.zero_le _, h'.1.cleared⟩

theorem readThrough_safe (room : Room) (h : r.Secure) :
    Safe (Checked.readThrough room r) (r.readThrough room) fun (g, r') =>
      g.count ≤ room.size ∧ r'.Secure := by
  refine (safe_of (draw_upholds h.source room)).bind ?_
  rintro ⟨g, r₁⟩ ⟨hle, s, hs, rfl⟩
  dsimp only at hle ⊢
  refine .ite (fun _ => safe_pure ⟨hle, h.inBounds, hs⟩) fun hcount => ?_
  exact safe_check (by omega) (safe_pure ⟨hle, h.inBounds, hs⟩)

/-- **A read is safe**, and never reports more than the room that it was offered. -/
theorem read_safe (room : Room) (h : r.Secure) :
    Safe (Checked.read room r) (r.read room) fun (g, r') => g.count ≤ room.size ∧ r'.Secure := by
  unfold Checked.read read
  dsimp only
  refine .ite (fun _ => safe_pure ⟨Nat.zero_le _, h.cleared⟩) fun hsize => ?_
  have hpos := Nat.pos_of_ne_zero hsize
  refine .ite (fun _ => deliverOrReport_safe hpos h) fun _ => ?_
  refine .ite (fun _ => readThrough_safe room h) fun _ => ?_
  exact (readOnce_safe h).bind fun r₁ h₁ => deliverOrReport_safe hpos h₁

theorem takeByte_safe (h : r.Secure) :
    Safe (Checked.takeByte r) r.takeByte fun (_, r') => r'.Secure := by
  unfold Checked.takeByte takeByte
  cases hunread : r.window.unread with
  | nil =>
    refine (settle_safe h).bind fun r₁ h₁ => ?_
    cases r₁.fault with
    | none => exact safe_of Act.upholds_exhausted
    | some e => exact safe_pure h₁.1.cleared
  | cons b rest =>
    have hpos : 1 ≤ r.buffered := by
      rw [buffered, hunread, List.length_cons]
      omega
    refine safe_check (h.inBounds.slice (lo_le_hi r) (Nat.le_refl _)) (safe_check hpos ?_)
    exact (settle_safe (h.advance 1 (some b) r.lastRune)).bind fun r' h' => safe_pure h'.1

theorem readByte_safe (h : r.Secure) :
    Safe (Checked.readByte r) r.readByte fun (_, r') => r'.Secure :=
  (ensure_safe 1 (h.withMemory _ _ none)).bind fun _ h₁ => takeByte_safe h₁

/-- The block has room for the byte that it starts over with. -/
theorem unreadByte_safe (h : r.Secure) :
    Safe (Checked.unreadByte r) r.unreadByte fun (_, r') => r'.Secure := by
  have hforgot := h.withMemory r.fault none none
  unfold Checked.unreadByte unreadByte
  dsimp only
  cases r.lastByte with
  | none => exact safe_pure hforgot
  | some b =>
    refine .ite (fun _ => ?_) fun _ => ?_
    · refine (acquire_safe hforgot).bind ?_
      rintro r₁ ⟨h₁, hholds, -⟩
      have hpos := h₁.inBounds.size_pos
      refine safe_check (Nat.lt_of_lt_of_le hpos hholds.size_le_extent) (safe_pure ?_)
      exact ⟨hholds.bounds h₁.inBounds.least_le hpos, h₁.source⟩
    · refine .ite (fun _ => safe_pure hforgot) fun hpast => ?_
      exact safe_check (List.length_pos_iff.mpr hpast) (safe_pure (h.retreat 1 none none))

/-! ## Runes -/

theorem ensureRune_safe (h : r.Secure) :
    Safe (Checked.ensureRune r) r.ensureRune fun r' => r'.Secure :=
  fillWhile_safe _ _ h

/-- A rune is no wider than the bytes that it is decoded from, and at least one byte wide. -/
theorem readRune_safe (h : r.Secure) :
    Safe (Checked.readRune r) r.readRune fun (_, r') => r'.Secure := by
  refine (ensureRune_safe h).bind fun r₁ h₁ => ?_
  dsimp only
  refine .ite (fun _ => ?_) fun hne => ?_
  · refine (settle_safe (h₁.withMemory _ _ none)).bind fun r₂ h₂ => safe_pure h₂.1.cleared
  have hpos : 0 < r₁.buffered := List.length_pos_iff.mpr hne
  have hextent := h₁.inBounds.hi_le_extent
  refine safe_check (h₁.inBounds.slice (lo_le_hi r₁) (Nat.le_refl _)) ?_
  refine safe_check (Nat.lt_of_lt_of_le (Nat.lt_add_of_pos_right hpos) hextent) ?_
  have hwidth := Rune.width_decode hne
  generalize Rune.decode r₁.window.unread = decoded at hwidth ⊢
  obtain ⟨c, width⟩ := decoded
  refine safe_check hwidth.2 (safe_check ?_ (safe_pure (h₁.advance width _ (some width))))
  have hin := h₁.inBounds.advance width
  have hlo : 0 < { r₁ with window := r₁.window.advance width }.lo := by
    rw [lo_advance r₁ hwidth.2]
    exact Nat.lt_of_lt_of_le hwidth.1 (Nat.le_add_left _ _)
  exact ⟨hlo, Nat.le_trans (lo_le_hi _) hin.hi_le_extent⟩

theorem unreadRune_safe (h : r.Secure) :
    Safe (Checked.unreadRune r) (pure r.unreadRune) fun (_, r') => r'.Secure := by
  unfold Checked.unreadRune unreadRune
  cases r.lastRune with
  | none => exact safe_pure h
  | some width =>
    dsimp only
    split
    · rename_i hle
      exact safe_check hle (safe_pure (h.retreat width none none))
    · exact safe_pure h

/-! ## Changing hands -/

/-- The larger buffer has room for the bytes of the smaller one. -/
theorem regrow_safe {size : Nat} (pool : PoolId) (hsize : r.size < size) (h : r.Secure) :
    Safe (Checked.regrow size pool r) (r.regrow size pool) fun r' => r'.Secure := by
  have hgrown : { withCapacity r.source size pool with
      fault := r.fault, lastByte := r.lastByte, lastRune := r.lastRune }.Secure :=
    ⟨inBounds_withCapacity r.source size pool, h.source⟩
  have hsurrender := safe_of (surrender_upholds r)
  unfold Checked.regrow regrow
  dsimp only
  split
  · refine (acquire_safe hgrown).bind ?_
    rintro r₁ ⟨h₁, hholds, heq⟩
    have hfits : r.buffered ≤ r₁.size := by
      obtain ⟨length, spare, rfl⟩ := heq
      exact Nat.le_trans (Nat.le_trans h.inBounds.buffered_le (Nat.le_of_lt hsize))
        (Nat.le_max_left ..)
    have hmoved : ∀ spare,
        { r₁ with window := { unread := r.window.unread, spare } }.Secure := fun spare =>
      ⟨hholds.bounds h₁.inBounds.least_le (Nat.le_trans (Nat.le_of_eq (Nat.zero_add _)) hfits),
        h₁.source⟩
    refine safe_check (h.inBounds.slice (lo_le_hi r) (Nat.le_refl _)) ?_
    refine safe_check ⟨Nat.zero_le _, Nat.le_trans hfits hholds.size_le_extent⟩ ?_
    exact (safe_pure (hmoved _)).bind fun r₂ h₂ => hsurrender.bind fun _ _ => safe_pure h₂
  · exact hsurrender.bind fun _ _ => safe_pure hgrown

theorem adapt_safe (size : Nat) (pool : PoolId) (h : r.Secure) :
    Safe (Checked.adapt size pool r) (r.adapt size pool) fun r' => r'.Secure := by
  unfold Checked.adapt adapt
  exact .ite (fun _ => safe_pure h) fun hlt => regrow_safe pool (Nat.lt_of_not_le hlt) h

end BufferedStream.Reader
