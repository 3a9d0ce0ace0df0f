import BufferedStream.Proofs.Reader.Bytes
import BufferedStream.Reader.Delimited

/-!
# What the operations on records do

A scan ends in one of three ways: with the record found, with the buffer full, or
with an error.  The operations on records differ in what they make of it.

* `Reader.scanUntil_meets` — the scan, and that its rounds suffice.
* `Reader.readSlice_meets`, `Reader.readLine_meets` — one scan.
* `Reader.readBytes_meets`, `Reader.readString_meets` — scan after scan until the
  record is complete.  Nothing bounds their number, so these may be halted.
-/

namespace BufferedStream

/-- A byte that the front lacks is found behind it. -/
theorem idxOf?_append_of_not_mem {delim : UInt8} {b : Bytes} (h : delim ∉ b) (c : Bytes) :
    (b ++ c).idxOf? delim = (c.idxOf? delim).map (b.length + ·) := by
  have hb : b.findIdx? (· == delim) = none := List.idxOf?_eq_none_iff.mpr h
  rw [List.idxOf?, List.findIdx?_append, hb, Option.none_or]
  simp only [Nat.add_comm]

namespace Reader

variable {σ : Type}

/-! ## Scanning -/

/-- The reader with all its bytes handed out. -/
def exhausted (r : Reader σ) : Reader σ := { r with window := r.window.exhaust }

theorem WF.exhausted {r : Reader σ} (h : r.WF) : r.exhausted.WF where
  size_ge := h.size_ge
  fits := by
    have := h.fits
    simp only [Reader.exhausted, Window.exhaust, List.length_append, List.length_reverse,
      List.length_nil]
    omega
  past_of_held hheld := by
    simp [Reader.exhausted, Window.exhaust, h.past_of_held hheld, h.unread_of_held hheld]
  unread_of_held _ := rfl

section Scans

variable [ByteSource σ]

/-- The ways of scanning for a delimiter. -/
inductive Scans (delim : UInt8) (r : Reader σ) : List Draw → Passage → Reader σ → Prop
  | found {ds : List Draw} {r₁ : Reader σ} {i : Nat} (hp : r.Pulled ds r₁)
      (hnew : ds ≠ [] → delim ∉ r.window.unread)
      (hi : r₁.window.unread.idxOf? delim = some i) :
      Scans delim r ds ⟨r₁.window.unread.take (i + 1), none⟩
        { r₁ with window := r₁.window.advance (i + 1) }
  /-- The buffer filled up first; an error that came meanwhile stays latched. -/
  | full {ds : List Draw} {r₁ : Reader σ} (hp : r.Pulled ds r₁) (hcalls : ds ≠ [])
      (hno : delim ∉ r₁.window.unread) (hfull : r₁.size ≤ r₁.buffered) :
      Scans delim r ds ⟨r₁.window.unread, some .bufferFull⟩ r₁.exhausted
  | ended {ds : List Draw} {r₁ r₂ : Reader σ} {e : Error} (hp : r.Pulled ds r₁)
      (hno : delim ∉ r₁.window.unread) (hfault : r₁.fault = some e)
      (hs : r₁.exhausted.Settles r₂) (hroom : ds ≠ [] → r₁.buffered < r₁.size) :
      Scans delim r ds ⟨r₁.window.unread, some e⟩ r₂.cleared

variable {H : Halt → Prop} {sh : Shared}

/-- A scan that meets an error first hands out what there is. -/
theorem scanRounds_latched_meets {delim : UInt8} {r : Reader σ} {e : Error} (h : r.WF)
    (hno : delim ∉ r.window.unread) (hfault : r.fault = some e) (rounds : Nat) :
    Act.Meets H (r.scanRounds delim rounds) sh fun (p, r') _ => ∃ ds, r.Scans delim ds p r' := by
  unfold scanRounds
  rw [hfault]
  dsimp only [handOutAll]
  split
  · refine Act.meets_bind.mpr ((settle_meets _).imp ?_)
    intro r' sh' hs
    exact ⟨[], .ended (.refl h) hno hfault hs (by simp)⟩
  · exact ⟨[], .ended (.refl h) hno hfault .keeps (by simp)⟩

theorem Scans.fill {delim : UInt8} {r r₁ r' : Reader σ} {ds es : List Draw} {p : Passage}
    (hfault : r.fault = none) (hno : delim ∉ r.window.unread) (hf : r.Filled ds r₁)
    (hroom : r₁.buffered < r₁.size) (h : r₁.Scans delim es p r') :
    r.Scans delim (ds ++ es) p r' := by
  cases h with
  | found hp _ hi => exact .found (hp.fill hfault hf fun _ => hroom) (fun _ => hno) hi
  | full hp hcalls hno₁ hfull =>
    exact .full (hp.fill hfault hf fun _ => hroom) (by simp [hcalls]) hno₁ hfull
  | ended hp hno₁ he hs hroom₁ =>
    refine .ended (hp.fill hfault hf fun _ => hroom) hno₁ he hs fun _ => ?_
    by_cases hes : es = []
    · subst hes
      rw [buffered, hp.unread, hp.size, drawn_nil, List.append_nil]
      exact hroom
    · exact hroom₁ hes

/-- By induction on the rounds: a filling that does not fill the buffer up brings
one byte more, or an error. -/
theorem scanRounds_meets [HonestSource H σ] {delim : UInt8} (rounds : Nat) (r : Reader σ)
    (h : r.WF) (hno : delim ∉ r.window.unread)
    (hrounds : r.fault.isSome = true ∨ r.size < r.buffered + rounds) :
    Act.Meets H (r.scanRounds delim rounds) sh fun (p, r') _ => ∃ ds, r.Scans delim ds p r' := by
  induction rounds generalizing r sh with
  | zero =>
    have hbuffered := h.buffered_le
    obtain ⟨e, he⟩ := Option.isSome_iff_exists.mp (hrounds.resolve_right (by omega))
    exact scanRounds_latched_meets h hno he 0
  | succ rounds ih =>
    cases hfault : r.fault with
    | some e => exact scanRounds_latched_meets h hno hfault (rounds + 1)
    | none =>
      unfold scanRounds
      rw [hfault]
      dsimp only
      refine Act.meets_bind.mpr ((fill_meets r).imp ?_)
      rintro r₁ sh₁ ⟨ds, hf⟩
      have hunread := hf.unread
      have hsize := hf.size
      have hp := hf.pulled h hfault
      have hnew : r₁.window.unread.drop r.buffered = drawn ds := by
        rw [hunread, buffered, List.drop_left]
      rw [hnew]
      split
      · rename_i i hi
        have hi₁ : r₁.window.unread.idxOf? delim = some (r.buffered + i) := by
          rw [hunread, idxOf?_append_of_not_mem hno, hi]
          rfl
        exact ⟨ds, .found hp (fun _ => hno) hi₁⟩
      · rename_i hi
        have hno₁ : delim ∉ r₁.window.unread := by
          rw [hunread, List.mem_append, not_or]
          exact ⟨hno, List.idxOf?_eq_none_iff.mp hi⟩
        split
        · rename_i hfull
          exact ⟨ds, .full hp hf.ne_nil hno₁ hfull⟩
        · rename_i hfull
          have hle : r.buffered ≤ r₁.buffered := by
            simp only [buffered, hunread, List.length_append]
            omega
          have hrounds₁ : r₁.fault.isSome = true ∨ r₁.size < r₁.buffered + rounds := by
            refine (hf.progress (by omega)).imp id fun hlt => ?_
            have hsum := hrounds.resolve_left (by simp [hfault])
            omega
          refine (ih r₁ hp.wf hno₁ hrounds₁).imp ?_
          rintro ⟨p, r'⟩ sh' ⟨es, hs⟩
          exact ⟨ds ++ es, hs.fill hfault hno hf (Nat.lt_of_not_le hfull)⟩

/-- **A scan always ends** with the record, a full buffer or an error. -/
theorem scanUntil_meets [HonestSource H σ] {r : Reader σ} (h : r.WF) (delim : UInt8) :
    Act.Meets H (r.scanUntil delim) sh fun (p, r') _ => ∃ ds, r.Scans delim ds p r' := by
  unfold scanUntil
  split
  · rename_i i hi
    exact ⟨[], .found (.refl h) (by simp) hi⟩
  · rename_i hi
    exact scanRounds_meets _ r h (List.idxOf?_eq_none_iff.mp hi) (.inr (by omega))

theorem Scans.wf {delim : UInt8} {r r' : Reader σ} {ds : List Draw} {p : Passage}
    (h : r.Scans delim ds p r') : r'.WF := by
  cases h with
  | found hp => exact hp.wf.advance _ _ _
  | full hp => exact hp.wf.exhausted
  | ended hp _ _ hs => exact (hs.wf hp.wf.exhausted).cleared

theorem Scans.calls {delim : UInt8} {r r' : Reader σ} {ds : List Draw} {p : Passage}
    (h : r.Scans delim ds p r') : Calls r.source ds r'.source := by
  cases h with
  | found hp => exact hp.calls
  | full hp => exact hp.calls
  | ended hp _ _ hs => exact hs.source_eq ▸ hp.calls

theorem Scans.lastByte_eq {delim : UInt8} {r r' : Reader σ} {ds : List Draw} {p : Passage}
    (h : r.Scans delim ds p r') : r'.lastByte = r.lastByte := by
  cases h with
  | found hp => exact hp.lastByte
  | full hp => exact hp.lastByte
  | ended hp _ _ hs => exact hs.lastByte_eq.trans hp.lastByte

/-- A record is not empty: it ends with its delimiter. -/
theorem Scans.bytes_ne_nil {delim : UInt8} {r r' : Reader σ} {ds : List Draw} {p : Passage}
    (h : r.Scans delim ds p r') (hfault : p.fault = none) : p.bytes ≠ [] := by
  cases h with
  | found hp _ hi =>
    obtain ⟨hlt, -⟩ := List.idxOf?_eq_some_iff.mp hi
    intro hnil
    have hlen := congrArg List.length hnil
    simp only [List.length_take, List.length_nil] at hlen
    omega
  | full => cases hfault
  | ended => cases hfault

/-! ## One scan -/

/-- Reading a slice is a scan, with a note of what was delivered. -/
theorem readSlice_meets [HonestSource H σ] {r : Reader σ} (h : r.WF) (delim : UInt8) :
    Act.Meets H (r.readSlice delim) sh fun (p, r') _ => ∃ ds r₁, r.Scans delim ds p r₁ ∧
      r' = r₁.noteDelivered p.bytes := by
  refine Act.meets_bind.mpr ((scanUntil_meets h delim).imp ?_)
  rintro ⟨p, r₁⟩ sh' ⟨ds, hs⟩
  exact ⟨ds, r₁, hs, rfl⟩

/-- The ways of reading a line. -/
inductive ReadsLine (r : Reader σ) :
    List Draw → Except Error (Bytes × Bool) → Reader σ → Prop
  | piece {ds : List Draw} {p : Passage} {r₁ r₂ : Reader σ} {b : Bytes}
      (hs : r.Scans newline ds p r₁) (hfault : p.fault = some .bufferFull)
      (hb : r₁.holdBackReturn p.bytes = (b, r₂)) :
      ReadsLine r ds (.ok (b, true)) (r₂.noteDelivered b)
  | line {ds : List Draw} {p : Passage} {r₁ : Reader σ} (hs : r.Scans newline ds p r₁)
      (hfault : p.fault ≠ some .bufferFull) (hne : p.bytes ≠ []) :
      ReadsLine r ds (.ok (stripLineEnd p.bytes, false)) (r₁.noteDelivered p.bytes)
  | failed {ds : List Draw} {e : Error} {r₁ : Reader σ} (hs : r.Scans newline ds ⟨[], some e⟩ r₁)
      (he : e ≠ .bufferFull) : ReadsLine r ds (.error e) { r₁ with lastRune := none }

theorem readLine_meets [HonestSource H σ] {r : Reader σ} (h : r.WF) :
    Act.Meets H r.readLine sh fun (l, r') _ => ∃ ds, r.ReadsLine ds l r' := by
  refine Act.meets_bind.mpr ((scanUntil_meets h newline).imp ?_)
  rintro ⟨⟨b, fault⟩, r₁⟩ sh' ⟨ds, hs⟩
  dsimp only
  split
  · exact ⟨ds, .piece hs rfl rfl⟩
  · rename_i hfault
    split
    · rename_i hb
      subst hb
      split
      · rename_i e
        exact ⟨ds, .failed hs fun he => hfault (congrArg some he)⟩
      · exact absurd rfl (hs.bytes_ne_nil rfl)
    · rename_i hne
      exact ⟨ds, .line hs (fun hf => hfault hf) hne⟩

omit [ByteSource σ] in
/-- Holding a carriage return back moves by one byte, or not at all. -/
theorem holdBackReturn_eq {b c : Bytes} {r r' : Reader σ} (h : r.holdBackReturn b = (c, r')) :
    (c = b ∧ r' = r) ∨
      (b = c ++ [carriageReturn] ∧ r' = { r with window := r.window.retreat 1 }) := by
  unfold holdBackReturn at h
  split at h
  · rename_i hlast
    obtain ⟨rfl, rfl⟩ := Prod.mk.inj h
    obtain ⟨init, rfl⟩ := List.getLast?_eq_some_iff.mp hlast
    exact .inr ⟨by simp, rfl⟩
  · obtain ⟨rfl, rfl⟩ := Prod.mk.inj h
    exact .inl ⟨rfl, rfl⟩

/-- A passage that stopped at a full buffer is the end of what was handed out. -/
theorem Scans.past_of_full {delim : UInt8} {r r' : Reader σ} {ds : List Draw} {p : Passage}
    (hs : r.Scans delim ds p r') (hfault : p.fault = some .bufferFull) :
    r'.window.unread = [] ∧ p.bytes.reverse <+: r'.window.past := by
  cases hs with
  | found => cases hfault
  | full => exact ⟨rfl, List.prefix_append ..⟩
  | @ended r₁ r₂ e _ _ he hs =>
    cases hs with
    | keeps => exact ⟨rfl, List.prefix_append ..⟩
    | returns _ heof =>
      rw [Option.some.inj hfault] at he
      rw [show r₁.exhausted.fault = r₁.fault from rfl, he] at heof
      cases heof

/-- A carriage return that is held back is unread again, and the piece stands behind it. -/
theorem Scans.holdBack {r r₁ r₂ : Reader σ} {ds : List Draw} {p : Passage} {b : Bytes}
    (hs : r.Scans newline ds p r₁) (hfault : p.fault = some .bufferFull)
    (hb : r₁.holdBackReturn p.bytes = (b, r₂)) :
    p.bytes = b ++ r₂.window.unread ∧ b.reverse <+: r₂.window.past := by
  obtain ⟨hunread, hpast⟩ := hs.past_of_full hfault
  rcases holdBackReturn_eq hb with ⟨rfl, rfl⟩ | ⟨hbytes, rfl⟩
  · rw [hunread, List.append_nil]
    exact ⟨rfl, hpast⟩
  · rw [hbytes, List.reverse_append, List.reverse_singleton] at hpast
    obtain ⟨later, hlater⟩ := hpast
    rw [hbytes]
    show _ = b ++ ((r₁.window.past.take 1).reverse ++ r₁.window.unread) ∧
      _ <+: r₁.window.past.drop 1
    rw [← hlater, hunread]
    exact ⟨rfl, later, rfl⟩

omit [ByteSource σ] in
theorem WF.noteDelivered {r : Reader σ} (h : r.WF) (b : Bytes) : (r.noteDelivered b).WF :=
  ⟨h.1, h.2, h.3, h.4⟩

theorem ReadsLine.wf {r r' : Reader σ} {ds : List Draw} {l : Except Error (Bytes × Bool)}
    (hl : r.ReadsLine ds l r') : r'.WF := by
  cases hl with
  | piece hs _ hb =>
    rcases holdBackReturn_eq hb with ⟨-, rfl⟩ | ⟨-, rfl⟩
    · exact hs.wf.noteDelivered _
    · exact (hs.wf.retreating 1).noteDelivered _
  | line hs => exact hs.wf.noteDelivered _
  | failed hs => exact hs.wf.forgetRune

theorem ReadsLine.calls {r r' : Reader σ} {ds : List Draw} {l : Except Error (Bytes × Bool)}
    (hl : r.ReadsLine ds l r') : Calls r.source ds r'.source := by
  cases hl with
  | piece hs _ hb => rcases holdBackReturn_eq hb with ⟨-, rfl⟩ | ⟨-, rfl⟩ <;> exact hs.calls
  | line hs => exact hs.calls
  | failed hs => exact hs.calls

/-! ## Scan after scan -/

/-- The ways of collecting a record: as long as a scan ends with a full buffer,
another one follows. -/
inductive Collects (delim : UInt8) : Reader σ → List Draw → Passage → Reader σ → Prop
  | last {r r₁ : Reader σ} {ds : List Draw} {p : Passage} (hs : r.Scans delim ds p r₁)
      (hfault : p.fault ≠ some .bufferFull) : Collects delim r ds p (r₁.noteDelivered p.bytes)
  | more {r r₁ r₂ : Reader σ} {ds es : List Draw} {p q : Passage} (hs : r.Scans delim ds p r₁)
      (hfault : p.fault = some .bufferFull)
      (hrest : Collects delim (r₁.noteDelivered p.bytes) es q r₂) :
      Collects delim r (ds ++ es) ⟨p.bytes ++ q.bytes, q.fault⟩ r₂

theorem Collects.calls {delim : UInt8} {r r' : Reader σ} {ds : List Draw} {p : Passage}
    (h : r.Collects delim ds p r') : Calls r.source ds r'.source := by
  induction h with
  | last hs => exact hs.calls
  | more hs _ _ ih => exact hs.calls.append ih

theorem Collects.wf {delim : UInt8} {r r' : Reader σ} {ds : List Draw} {p : Passage}
    (h : r.Collects delim ds p r') : r'.WF := by
  induction h with
  | last hs => exact hs.wf.noteDelivered _
  | more _ _ _ ih => exact ih

/-- By induction on the rounds: what was collected before stands in front.  The
invariant, which may count the rounds, is kept by every scan that fills the buffer
up; where it admits no round, being halted is admitted. -/
theorem readBytesRounds_meets [HonestSource H σ] {delim : UInt8} {I : Nat → Reader σ → Prop}
    (hwf : ∀ rounds r, I rounds r → r.WF) (hzero : ∀ r, I 0 r → H .exhausted)
    (hstep : ∀ rounds r ds p r₁, I (rounds + 1) r → r.Scans delim ds p r₁ →
      p.fault = some .bufferFull → I rounds (r₁.noteDelivered p.bytes))
    (rounds : Nat) (collected : Bytes) (r : Reader σ) (h : I rounds r) :
    Act.Meets H (r.readBytesRounds delim rounds collected) sh fun (p, r') _ => ∃ ds q,
      r.Collects delim ds q r' ∧ p = ⟨collected ++ q.bytes, q.fault⟩ := by
  induction rounds generalizing collected r sh with
  | zero => exact hzero r h
  | succ rounds ih =>
    rw [readBytesRounds]
    refine Act.meets_bind.mpr ((readSlice_meets (hwf _ r h) delim).imp ?_)
    rintro ⟨p, r'⟩ sh' ⟨ds, r₁, hs, rfl⟩
    dsimp only
    split
    · rename_i hfault
      refine (ih (collected ++ p.bytes) _ (hstep _ _ _ _ _ h hs hfault)).imp ?_
      rintro ⟨p', r'⟩ sh'' ⟨es, q, hc, rfl⟩
      exact ⟨ds ++ es, _, .more hs hfault hc, by rw [List.append_assoc]⟩
    · rename_i hfault
      exact ⟨ds, p, .last hs fun hf => hfault hf, rfl⟩

theorem readBytes_meets [HonestSource H σ] (hH : H .exhausted) {r : Reader σ} (h : r.WF)
    (delim : UInt8) :
    Act.Meets H (r.readBytes delim) sh fun (p, r') _ => ∃ ds, r.Collects delim ds p r' := by
  refine Act.meets_bind.mpr (Act.meets_patience.mpr ?_)
  refine (readBytesRounds_meets (I := fun _ r => r.WF) (fun _ _ h => h) (fun _ _ => hH)
    (fun _ _ _ _ _ _ hs _ => hs.wf.noteDelivered _) sh.patience [] r h).imp ?_
  rintro ⟨p, r'⟩ sh' ⟨ds, q, hc, rfl⟩
  exact ⟨ds, hc⟩

theorem readString_meets [HonestSource H σ] (hH : H .exhausted) {r : Reader σ} (h : r.WF)
    (delim : UInt8) :
    Act.Meets H (r.readString delim) sh fun (t, r') _ => ∃ ds p r₁, r.Collects delim ds p r₁ ∧
      t = (Rune.lossy p.bytes, p.fault) ∧ r₁.Settles r' := by
  refine Act.meets_bind.mpr ((readBytes_meets hH h delim).imp ?_)
  rintro ⟨p, r₁⟩ sh' ⟨ds, hc⟩
  refine Act.meets_bind.mpr ((settle_meets r₁).imp ?_)
  intro r' sh'' hs
  exact ⟨ds, p, r₁, hc, rfl, hs⟩

end Scans

end Reader

end BufferedStream
