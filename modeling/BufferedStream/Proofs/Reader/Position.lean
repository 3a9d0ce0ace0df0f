import BufferedStream.Proofs.Reader.Operation

/-!
# Where a reader stands in its stream

A reader stands behind the bytes that it has handed out and not taken back: what
its source has handed out is these bytes followed by the unread ones
(`Reader.Stands`).  What it remembers for pushing back must agree with them
(`Reader.Knows`).

The past of the window is the end of these bytes only as long as something is
unread or a rune can be pushed back: bytes that went past the buffer, or were
moved in bulk, leave an old past behind, which is dropped before new bytes come.

Pulling bytes from the source and settling move nothing; delivering moves the
reader forward (`Knows.delivering`), retreating moves it back
(`Stands.retreat`).
-/

namespace BufferedStream

open History (given)

namespace Reader

variable {σ : Type} [ByteSource σ] [History σ]

/-- The reader stands behind the bytes `c` of its stream. -/
structure Stands (r : Reader σ) (c : Bytes) : Prop where
  wf : r.WF
  given : given r.source = c ++ r.window.unread
  past : r.window.unread ≠ [] → r.window.past.reverse <:+ c

/-- The reader stands behind `c` and remembers it rightly; the rune that was read
last had the given width. -/
structure Knows (r : Reader σ) (c : Bytes) (width : Nat) : Prop extends Stands r c where
  lastByte : ∀ b, r.lastByte = some b → c.getLast? = some b
  lastRune : ∀ w, r.lastRune = some w → w = width ∧ r.window.past.reverse <:+ c

theorem knows_withCapacity (s : σ) (size : Nat) (pool : PoolId) :
    (withCapacity s size pool).Knows (History.given s) 0 where
  wf := wf_withCapacity s size pool
  given := (List.append_nil _).symm
  past _ := List.nil_suffix
  lastByte _ h := by cases h
  lastRune _ h := by cases h

variable {r r' : Reader σ} {c : Bytes} {width : Nat}

/-! ## Moves that leave the reader where it stands -/

theorem Stands.extended {ds : List Draw} (h : r.Stands c) (he : r.Extended ds r') :
    r'.Stands c where
  wf := he.wf
  given := by rw [given_of_calls he.calls, h.given, he.unread, List.append_assoc]
  past hne := by
    rcases he.past with ⟨rfl, hp⟩ | hp
    · rw [he.unread, drawn_nil, List.append_nil] at hne
      rw [hp]
      exact h.past hne
    · rw [hp]
      exact List.nil_suffix

theorem Knows.extended {ds : List Draw} (h : r.Knows c width) (he : r.Extended ds r') :
    r'.Knows c width where
  toStands := h.toStands.extended he
  lastByte b hb := h.lastByte b (he.lastByte ▸ hb)
  lastRune w hw := by
    obtain ⟨hwidth, hsuffix⟩ := h.lastRune w (he.lastRune ▸ hw)
    refine ⟨hwidth, ?_⟩
    rcases he.past with ⟨-, hp⟩ | hp
    · rwa [hp]
    · rw [hp]
      exact List.nil_suffix

omit [ByteSource σ] [History σ] in
theorem Settles.suffix (hs : r.Settles r') (h : r.window.past.reverse <:+ c) :
    r'.window.past.reverse <:+ c := by
  rcases hs.past_eq with hp | hp
  · rwa [hp]
  · rw [hp]
    exact List.nil_suffix

theorem Stands.settles (h : r.Stands c) (hs : r.Settles r') : r'.Stands c where
  wf := hs.wf h.wf
  given := by rw [hs.source_eq, hs.unread_eq, h.given]
  past hne := hs.suffix (h.past (hs.unread_eq ▸ hne))

theorem Knows.settles (h : r.Knows c width) (hs : r.Settles r') : r'.Knows c width where
  toStands := h.toStands.settles hs
  lastByte b hb := h.lastByte b (hs.lastByte_eq ▸ hb)
  lastRune w hw := (h.lastRune w (hs.lastRune_eq ▸ hw)).imp id hs.suffix

/-- Only the source, the window, and whether a block is held decide where a
reader stands. -/
theorem Stands.congr (h : r.Stands c) (hwf : r'.WF) (hsource : r'.source = r.source)
    (hwindow : r'.window = r.window) : r'.Stands c where
  wf := hwf
  given := by rw [hsource, hwindow, h.given]
  past := by rw [hwindow]; exact h.past

theorem Knows.cleared (h : r.Knows c width) : r.cleared.Knows c width where
  toStands := h.toStands.congr h.wf.cleared rfl rfl
  lastByte := h.lastByte
  lastRune := h.lastRune

theorem Knows.forgetRune (h : r.Knows c width) :
    ({ r with lastRune := none } : Reader σ).Knows c width where
  toStands := h.toStands.congr h.wf.forgetRune rfl rfl
  lastByte := h.lastByte
  lastRune _ hw := by cases hw

theorem Knows.latch (h : r.Knows c width) (fault : Option Error) :
    (r.latch fault).Knows c width := by
  rw [latch_eq]
  exact ⟨h.toStands.congr ⟨h.wf.1, h.wf.2, h.wf.3, h.wf.4⟩ rfl rfl, h.lastByte, h.lastRune⟩

/-- A reader that remembers nothing remembers nothing wrongly. -/
theorem Stands.knows (h : r.Stands c) (hbyte : r.lastByte = none) (hrune : r.lastRune = none)
    (width : Nat) : r.Knows c width where
  toStands := h
  lastByte b hb := by rw [hbyte] at hb; cases hb
  lastRune w hw := by rw [hrune] at hw; cases hw

theorem Stands.forgetting (h : r.Stands c) (width : Nat) : r.forgetting.Knows c width where
  toStands := h.congr ⟨h.wf.1, h.wf.2, h.wf.3, h.wf.4⟩ rfl rfl
  lastByte _ hb := by cases hb
  lastRune _ hw := by cases hw

/-! ## Moving forward -/

theorem suffix_advance {w : Window} (n : Nat) (h : w.past.reverse <:+ c) :
    (w.advance n).past.reverse <:+ c ++ w.unread.take n := by
  obtain ⟨x, hx⟩ := h
  refine ⟨x, ?_⟩
  rw [Window.advance, List.reverse_append, List.reverse_reverse, ← List.append_assoc, hx]

theorem Stands.advance (h : r.Stands c) (n : Nat) (lastByte : Option UInt8)
    (lastRune : Option Nat) :
    ({ r with window := r.window.advance n, lastByte, lastRune } : Reader σ).Stands
      (c ++ r.window.unread.take n) where
  wf := h.wf.advance n lastByte lastRune
  given := by
    show History.given r.source = _
    rw [h.given, List.append_assoc, Window.advance, List.take_append_drop]
  past hne := by
    refine suffix_advance n (h.past fun hnil => hne ?_)
    rw [Window.advance, hnil, List.drop_nil]

/-- What is noted of delivered bytes agrees with the place behind them. -/
theorem Stands.knows_of_last {b : Bytes} (h : r.Stands (c ++ b))
    (hlast : r.lastByte = b.getLast?) (hrune : r.lastRune = none) (width : Nat) :
    r.Knows (c ++ b) width where
  toStands := h
  lastByte x hx := by
    rw [hlast] at hx
    rw [List.getLast?_append, hx]
    rfl
  lastRune w hw := by rw [hrune] at hw; cases hw

/-- **Delivering moves the reader forward** by what it delivers. -/
theorem Stands.delivering (h : r.Stands c) (n : Nat) (width : Nat) :
    (r.delivering n).Knows (c ++ r.window.unread.take n) width :=
  (h.advance n _ _).knows_of_last rfl rfl width

theorem Stands.noteDelivered {b : Bytes} (h : r.Stands (c ++ b)) (width : Nat) :
    (r.noteDelivered b).Knows (c ++ b) width :=
  (h.congr (h.wf.noteDelivered b) rfl rfl).knows_of_last rfl rfl width

theorem Stands.exhausted (h : r.Stands c) : r.exhausted.Stands (c ++ r.window.unread) where
  wf := h.wf.exhausted
  given := by
    show History.given r.source = _
    rw [h.given]
    exact (List.append_nil _).symm
  past hne := absurd rfl hne

/-- A rune leaves its last byte as the head of the past. -/
theorem Stands.deliveringRune (h : r.Stands c) {n : Nat} (hpos : 0 < n)
    (hle : n ≤ r.window.unread.length) :
    (r.deliveringRune n).Knows (c ++ r.window.unread.take n) n where
  toStands := h.advance n _ _
  lastByte b hb := by
    have hne : r.window.unread.take n ≠ [] := by
      refine List.ne_nil_of_length_pos ?_
      rw [List.length_take]
      omega
    rw [List.getLast?_append, List.getLast?_eq_some_getLast hne, Option.some_or, ← hb]
    show _ = ((r.window.unread.take n).reverse ++ r.window.past).head?
    rw [List.head?_append, List.head?_reverse, List.getLast?_eq_some_getLast hne, Option.some_or]
  lastRune w hw := by
    refine ⟨(Option.some.inj hw).symm, suffix_advance n (h.past ?_)⟩
    exact List.ne_nil_of_length_pos (by omega)

/-! ## Moving back -/

/-- **Retreating moves the reader back** by as many bytes, if they are still in
the window. -/
theorem Stands.retreat {b : Bytes} (h : r.Stands (c ++ b))
    (hpast : r.window.past.reverse <:+ c ++ b) (hle : b.length ≤ r.window.past.length) :
    (r.retreating b.length).Stands c := by
  obtain ⟨x, hx⟩ : b <:+ r.window.past.reverse :=
    List.suffix_of_suffix_length_le (List.suffix_append c b) hpast (by simpa using hle)
  have hsplit : r.window.past = b.reverse ++ x.reverse := by
    rw [← List.reverse_append, hx, List.reverse_reverse]
  have hlen : b.reverse.length = b.length := List.length_reverse
  refine ⟨h.wf.retreating _, ?_, fun _ => ?_⟩
  · show History.given r.source = c ++ ((r.window.past.take b.length).reverse ++ r.window.unread)
    rw [h.given, hsplit, List.take_left' hlen, List.reverse_reverse, List.append_assoc]
  · show (r.window.past.drop b.length).reverse <:+ c
    rw [hsplit, List.drop_left' hlen, List.reverse_reverse]
    rw [← hx] at hpast
    obtain ⟨y, hy⟩ := hpast
    rw [← List.append_assoc] at hy
    exact ⟨y, List.append_cancel_right hy⟩

/-- Starting over with the last byte is moving back by it. -/
theorem Stands.restarted {b : UInt8} (h : r.Stands (c ++ [b])) (hunread : r.window.unread = [])
    (length : Nat) (spare : Bytes) : (r.restarted b length spare).Stands c where
  wf := ⟨h.wf.size_ge, h.wf.size_pos, fun _ => rfl, fun hheld => by cases hheld⟩
  given := by
    show History.given r.source = c ++ [b]
    rw [h.given, hunread, List.append_nil]
  past _ := List.nil_suffix

end Reader

end BufferedStream
