import BufferedStream.Proofs.Reader.Records
import BufferedStream.Proofs.Stack.Sound

/-!
# Scanning a stack for records

A scan of a sound reader finds the next record, unless it starts on a full buffer
over a hasty source: then the end comes out before the bytes do.

* `Reader.record` — the next record of a byte string.
* `Reader.ScansHasty` — where scanning goes wrong.
* `Reader.Collects.record_eq`, `Reader.Collects.ends_early` — collecting a record
  everywhere else, and there.
-/

namespace BufferedStream

namespace Reader

/-! ## Records -/

/-- The bytes up to the first delimiter, or all of them and the end. -/
def record (delim : UInt8) (b : Bytes) : Passage :=
  match b.idxOf? delim with
  | some i => ⟨b.take (i + 1), none⟩
  | none => ⟨b, some .eof⟩

/-- A delimiter in front ends the record there. -/
theorem record_append_of_idxOf? {delim : UInt8} {b : Bytes} {i : Nat}
    (h : b.idxOf? delim = some i) (c : Bytes) :
    record delim (b ++ c) = ⟨b.take (i + 1), none⟩ := by
  have hb : b.findIdx? (· == delim) = some i := h
  have hlt : i < b.length := (List.findIdx?_eq_some_iff_getElem.mp hb).1
  have happend : (b ++ c).idxOf? delim = some i := by
    rw [List.idxOf?, List.findIdx?_append, hb, Option.some_or]
  rw [record, happend]
  simp only [List.take_append_of_le_length hlt]

/-- Bytes in front without a delimiter are part of the record. -/
theorem record_append_of_not_mem {delim : UInt8} {b : Bytes} (h : delim ∉ b) (c : Bytes) :
    record delim (b ++ c) = ⟨b ++ (record delim c).bytes, (record delim c).fault⟩ := by
  rw [record, idxOf?_append_of_not_mem h, record]
  cases c.idxOf? delim with
  | none => rfl
  | some i =>
    dsimp only [Option.map_some]
    rw [Nat.add_assoc, List.take_length_add_append]

theorem record_of_not_mem {delim : UInt8} {b : Bytes} (h : delim ∉ b) :
    record delim b = ⟨b, some .eof⟩ := by
  rw [record, List.idxOf?_eq_none_iff.mpr h]

variable {σ : Type} [ByteSource σ] [Layer σ] {r r' r₁ : Reader σ} {ds : List Draw}
  {delim : UInt8} {p : Passage}

/-! ## One scan -/

/-- A scan would start on a full buffer, over a source that is hasty. -/
def ScansHasty (delim : UInt8) (r : Reader σ) : Prop :=
  r.fault = none ∧ delim ∉ r.window.unread ∧ r.size ≤ r.buffered ∧ Layer.Hasty r.source

theorem remaining_advance (r : Reader σ) (n : Nat) :
    r.window.unread.take n ++ ({ r with window := r.window.advance n } : Reader σ).remaining =
      r.remaining := by
  show _ ++ (r.window.unread.drop n ++ _) = _
  rw [← List.append_assoc, List.take_append_drop]
  rfl

/-- Elsewhere a scan pulls soundly. -/
theorem Pulled.sound_of_not_scansHasty (hp : r.Pulled ds r₁) (h : r.Sound)
    (hno : ds ≠ [] → delim ∉ r.window.unread) (hcalm : ¬ r.ScansHasty delim) :
    r₁.Sound ∧ r₁.remaining = r.remaining := by
  by_cases hroom : ds ≠ [] → r.buffered < r.size
  · exact hp.sound h hroom
  · obtain ⟨hds, hfull⟩ := Classical.not_imp.mp hroom
    have hfull := Nat.le_of_not_lt hfull
    obtain ⟨hunread, hremaining, hstalled⟩ := hp.stalled h hds hfull
    have hsound : r₁.Sound := by
      rcases hstalled with ⟨hhasty, -⟩ | ⟨-, hsound⟩
      · exact absurd ⟨hp.fault_of_calls hds, hno hds, hfull, hhasty⟩ hcalm
      · exact hsound
    exact ⟨hsound, by rw [remaining, remaining, hunread, hremaining]⟩

omit [Layer σ] in
theorem Pulled.not_mem (hp : r.Pulled ds r₁) (hno : delim ∉ r₁.window.unread) :
    delim ∉ r.window.unread := by
  rw [hp.unread, List.mem_append, not_or] at hno
  exact hno.1

/-- What a scan of a sound reader comes to. -/
inductive Finds (delim : UInt8) (r : Reader σ) : Passage → Reader σ → Prop
  | record {p : Passage} {r' : Reader σ} (hfault : p.fault = none)
      (hp : p = Reader.record delim r.remaining) : Finds delim r p r'
  | full {p : Passage} {r' : Reader σ} (hfault : p.fault = some .bufferFull)
      (hno : delim ∉ p.bytes) (hne : p.bytes ≠ []) (hunread : r'.window.unread = []) :
      Finds delim r p r'
  | ended {p : Passage} {r' : Reader σ} (hfault : p.fault = some .eof) (hno : delim ∉ p.bytes)
      (hend : r'.remaining = []) : Finds delim r p r'

/-- **A scan of a sound reader** hands out what remains up to the first delimiter, as
far as it fits. -/
theorem Scans.finds (hs : r.Scans delim ds p r') (h : r.Sound) (hcalm : ¬ r.ScansHasty delim) :
    r'.Sound ∧ r.remaining = p.bytes ++ r'.remaining ∧ r.Finds delim p r' := by
  have hwf := hs.wf
  cases hs with
  | @found r₁ i hp hnew hi =>
    obtain ⟨hsound, hremaining⟩ := hp.sound_of_not_scansHasty h hnew hcalm
    refine ⟨hsound.congr hwf rfl (.inr rfl), ?_, .record rfl ?_⟩
    · rw [← hremaining]
      exact (r₁.remaining_advance _).symm
    · rw [← hremaining]
      exact (record_append_of_idxOf? hi _).symm
  | @full r₁ hp hcalls hno hfull =>
    obtain ⟨hsound, hremaining⟩ := hp.sound_of_not_scansHasty h (fun _ => hp.not_mem hno) hcalm
    refine ⟨hsound.congr hwf rfl (.inr rfl), hremaining.symm, .full rfl hno ?_ rfl⟩
    exact List.ne_nil_of_length_pos (Nat.lt_of_lt_of_le hp.wf.size_pos hfull)
  | @ended r₁ r₂ e hp hno he hs =>
    obtain ⟨hsound, hremaining⟩ := hp.sound_of_not_scansHasty h (fun _ => hp.not_mem hno) hcalm
    obtain ⟨rfl, hend⟩ := hsound.fault_eq he
    have hafter : r₂.cleared.remaining = Layer.remaining r₁.source := by
      show r₂.window.unread ++ Layer.remaining r₂.source = _
      rw [hs.unread_eq, hs.source_eq]
      rfl
    refine ⟨hsound.congr hwf hs.source_eq (.inl rfl), ?_, .ended rfl hno ?_⟩
    · rw [hafter, ← hremaining]
      rfl
    · rw [hafter, hend]

/-- A scan that starts on a full buffer over a hasty source latches the end. -/
theorem Scans.premature (hs : r.Scans delim ds p r') (h : r.Sound)
    (hhasty : r.ScansHasty delim) :
    p.fault = some .bufferFull ∧ p.bytes ≠ [] ∧ r'.Premature ∧ r'.window.unread = [] ∧
      r.remaining = p.bytes ++ r'.remaining := by
  obtain ⟨hfault, hno, hfull, hsource⟩ := hhasty
  have hstalled : ∀ {r₁ : Reader σ}, r.Pulled ds r₁ → ds ≠ [] →
      r₁.window.unread = r.window.unread ∧ r₁.Premature ∧ r₁.remaining = r.remaining := by
    intro r₁ hp hds
    obtain ⟨hunread, hremaining, hstalled⟩ := hp.stalled h hds hfull
    have hpremature := (hstalled.resolve_right fun hcalm => hcalm.1 hsource).2
    exact ⟨hunread, hpremature, by rw [remaining, remaining, hunread, hremaining]⟩
  cases hs with
  | @found r₁ i hp hnew hi =>
    have hunread : r₁.window.unread = r.window.unread := by
      by_cases hds : ds = []
      · subst hds
        rw [hp.unread, drawn_nil, List.append_nil]
      · exact (hstalled hp hds).1
    rw [hunread, List.idxOf?_eq_none_iff.mpr hno] at hi
    cases hi
  | @full r₁ hp hcalls hno₁ hfull₁ =>
    obtain ⟨hunread, hpremature, hremaining⟩ := hstalled hp hcalls
    refine ⟨rfl, ?_, ⟨hp.wf.exhausted, hpremature.source, hpremature.fault,
      hpremature.remaining⟩, rfl, hremaining.symm⟩
    exact List.ne_nil_of_length_pos (Nat.lt_of_lt_of_le hp.wf.size_pos hfull₁)
  | @ended r₁ r₂ e hp hno₁ he hs hroom =>
    by_cases hds : ds = []
    · subst hds
      rw [hp.fault_eq, hfault] at he
      cases he
    · have hlt := hroom hds
      rw [buffered, (hstalled hp hds).1, hp.size] at hlt
      exact absurd hfull (Nat.not_le.mpr hlt)

/-! ## Scan after scan -/

theorem Sound.noteDelivered (h : r.Sound) (b : Bytes) : (r.noteDelivered b).Sound :=
  h.congr (h.wf.noteDelivered b) rfl (.inr rfl)

theorem Premature.noteDelivered (h : r.Premature) (b : Bytes) : (r.noteDelivered b).Premature :=
  ⟨h.wf.noteDelivered b, h.source, h.fault, h.remaining⟩

/-- A reader with nothing unread does not scan a full buffer. -/
theorem not_scansHasty (hwf : r.WF) (hunread : r.window.unread = []) : ¬ r.ScansHasty delim := by
  rintro ⟨-, -, hfull, -⟩
  rw [buffered, hunread] at hfull
  exact absurd hfull (Nat.not_le.mpr hwf.size_pos)

/-- With the end latched and nothing unread a scan ends at once. -/
theorem Scans.of_premature (hs : r.Scans delim ds p r') (h : r.Premature)
    (hunread : r.window.unread = []) : p.fault = some .eof ∧ r'.remaining ≠ [] := by
  have hnone : ∀ {r₁ : Reader σ}, r.Pulled ds r₁ → ds = [] := by
    intro r₁ hp
    by_cases hds : ds = []
    · exact hds
    · have hfault := hp.fault_of_calls hds
      rw [h.fault] at hfault
      cases hfault
  cases hs with
  | @found r₁ i hp _ hi =>
    obtain rfl := hnone hp
    rw [hp.unread, hunread] at hi
    cases hi
  | full hp hcalls => exact absurd (hnone hp) hcalls
  | @ended r₁ r₂ e hp _ he hs =>
    obtain rfl := hnone hp
    rw [hp.fault_eq, h.fault] at he
    refine ⟨he.symm, fun hend => h.remaining ?_⟩
    have hsource : r₂.cleared.source = r.source := hs.source_eq.trans hp.calls.nil_eq
    rw [remaining, hsource, List.append_eq_nil_iff] at hend
    exact hend.2

theorem Collects.of_premature (hc : r.Collects delim ds p r') (h : r.Premature)
    (hunread : r.window.unread = []) : p.fault = some .eof ∧ r'.remaining ≠ [] := by
  cases hc with
  | last hs => exact hs.of_premature h hunread
  | more hs hfault =>
    have heof := (hs.of_premature h hunread).1
    rw [hfault] at heof
    cases heof

/-- **A record collected from a sound reader** is the next one that remains. -/
theorem Collects.record_eq (hc : r.Collects delim ds p r') (h : r.Sound)
    (hcalm : ¬ r.ScansHasty delim) :
    r'.Sound ∧ p = record delim r.remaining ∧ (p.fault = some .eof → r'.remaining = []) := by
  induction hc with
  | last hs hfault =>
    obtain ⟨hsound, hremaining, hfinds⟩ := hs.finds h hcalm
    refine ⟨hsound.noteDelivered _, ?_⟩
    cases hfinds with
    | record hnone hp =>
      refine ⟨hp, fun heof => ?_⟩
      rw [hnone] at heof
      cases heof
    | full hf => exact absurd hf hfault
    | ended heof hno hend =>
      refine ⟨?_, fun _ => hend⟩
      rw [hremaining, hend, List.append_nil, record_of_not_mem hno, ← heof]
  | @more r r₁ r₂ ds es p q hs hfault hrest ih =>
    obtain ⟨hsound, hremaining, hfinds⟩ := hs.finds h hcalm
    cases hfinds with
    | record hnone =>
      rw [hfault] at hnone
      cases hnone
    | full _ hno _ hunread =>
      obtain ⟨hsound₂, hq, hend⟩ := ih (hsound.noteDelivered _)
        (not_scansHasty (hs.wf.noteDelivered _) hunread)
      refine ⟨hsound₂, ?_, hend⟩
      rw [hremaining, record_append_of_not_mem hno]
      show Passage.mk (p.bytes ++ q.bytes) q.fault = _
      rw [hq]
      rfl
    | ended heof =>
      rw [hfault] at heof
      cases heof

/-- **Where scanning goes wrong** the end is reported although bytes remain. -/
theorem Collects.ends_early (hc : r.Collects delim ds p r') (h : r.Sound)
    (hhasty : r.ScansHasty delim) : p.fault = some .eof ∧ r'.remaining ≠ [] := by
  cases hc with
  | last hs hfault => exact absurd (hs.premature h hhasty).1 hfault
  | more hs _ hrest =>
    obtain ⟨-, -, hpremature, hunread, -⟩ := hs.premature h hhasty
    exact hrest.of_premature (hpremature.noteDelivered _) hunread

/-- Every scan that fills the buffer up leaves fewer bytes remaining. -/
theorem Scans.lt_remaining (hs : r.Scans delim ds p r')
    (h : r.Sound ∨ (r.Premature ∧ r.window.unread = [])) (hfault : p.fault = some .bufferFull) :
    (r'.Sound ∨ (r'.Premature ∧ r'.window.unread = [])) ∧
      r'.remaining.length < r.remaining.length := by
  have hlt : p.bytes ≠ [] → r.remaining = p.bytes ++ r'.remaining →
      r'.remaining.length < r.remaining.length := by
    intro hne heq
    rw [heq, List.length_append]
    exact Nat.lt_add_of_pos_left (List.length_pos_iff.mpr hne)
  rcases h with h | ⟨h, hunread⟩
  · by_cases hhasty : r.ScansHasty delim
    · obtain ⟨-, hne, hpremature, hunread, heq⟩ := hs.premature h hhasty
      exact ⟨.inr ⟨hpremature, hunread⟩, hlt hne heq⟩
    · obtain ⟨hsound, heq, hfinds⟩ := hs.finds h hhasty
      cases hfinds with
      | record hnone =>
        rw [hfault] at hnone
        cases hnone
      | full _ _ hne => exact ⟨.inl hsound, hlt hne heq⟩
      | ended heof =>
        rw [hfault] at heof
        cases heof
  · have heof := (hs.of_premature h hunread).1
    rw [hfault] at heof
    cases heof

/-- **Collecting a record returns**, if the patience exceeds the bytes that remain. -/
theorem readBytes_returns {sh : Shared} (h : r.Sound) (hpatience : r.remaining.length < sh.patience) :
    Act.Returns (r.readBytes delim) sh fun (p, r') _ => ∃ ds, r.Collects delim ds p r' := by
  refine Act.meets_bind.mpr (Act.meets_patience.mpr ?_)
  refine (readBytesRounds_meets (H := fun _ => False) (I := fun rounds r =>
    (r.Sound ∨ (r.Premature ∧ r.window.unread = [])) ∧ r.remaining.length < rounds)
    ?_ ?_ ?_ sh.patience [] r ⟨.inl h, hpatience⟩).imp ?_
  · rintro rounds r ⟨h, -⟩
    exact h.elim Sound.wf fun h => h.1.wf
  · rintro r ⟨-, h⟩
    exact absurd h (Nat.not_lt_zero _)
  · rintro rounds r ds p r₁ ⟨h, hlt⟩ hs hfault
    obtain ⟨hkeeps, hless⟩ := hs.lt_remaining h hfault
    refine ⟨hkeeps.imp (fun h => h.noteDelivered _) fun h => ⟨h.1.noteDelivered _, h.2⟩, ?_⟩
    exact Nat.lt_of_lt_of_le hless (Nat.le_of_lt_succ hlt)
  · rintro ⟨p, r'⟩ sh' ⟨ds, q, hc, rfl⟩
    exact ⟨ds, hc⟩

end Reader

end BufferedStream
