import BufferedStream.Proofs.Calm
import BufferedStream.Proofs.Reader.Latched
import BufferedStream.Proofs.Split

/-!
# Collecting records splits after the delimiter

A record that is collected is the front of the stretch ahead, up to the first delimiter,
or all of it with the error behind it.  Neither the size of the buffer nor the pieces in
which the bytes come have a part in it.  So who collects record after record gets the
stretch split after the delimiter.

* `Reader.TakesRecord` — what a record is.
* `Reader.Collects.takesRecord` — scan after scan comes to a record, and
  `Reader.readBytes_takes` — after at most one scan for each byte that is ahead.
* `Reader.Yields`, `Reader.yields_records` — record after record.
* `Reader.readBytes_splits` — in every state of the reader, and read as texts too.
-/

namespace BufferedStream

namespace Reader

variable {τ : Type} [ByteSource τ] [ErringSource τ] {r r' : Reader τ} {ds : List Draw}
  {delim : UInt8} {p : Passage} {sh : Shared}

/-! ## One record -/

/-- The record is the shortest front of the stretch that ends with the delimiter, and the
rest of the stretch is ahead now; or, without a delimiter ahead, it is all of the stretch,
and the error behind it is reported. -/
structure TakesRecord (delim : UInt8) (r : Reader τ) (p : Passage) (r' : Reader τ) : Prop where
  of_split : ∀ before rest, r.stretch = before ++ delim :: rest → delim ∉ before →
    p = ⟨before ++ [delim], none⟩ ∧ r'.stretch = rest ∧ r'.stop = r.stop
  of_not_mem : delim ∉ r.stretch → p = ⟨r.stretch, some r.stop⟩

/-- The first delimiter is where it is. -/
theorem append_cons_inj {before before' rest rest' : Bytes}
    (h : before ++ delim :: rest = before' ++ delim :: rest') (hno : delim ∉ before)
    (hno' : delim ∉ before') : before = before' ∧ rest = rest' := by
  have hparts := congrArg (List.splitOn delim) h
  rw [List.splitOn_append_cons_self_of_not_mem hno, List.splitOn_append_cons_self_of_not_mem hno',
    List.cons.injEq] at hparts
  obtain ⟨rfl, -⟩ := hparts
  exact ⟨rfl, List.tail_eq_of_cons_eq (List.append_cancel_left h)⟩

theorem TakesRecord.of_found {before : Bytes} (hstretch : r.stretch = before ++ delim :: r'.stretch)
    (hno : delim ∉ before) (hstop : r'.stop = r.stop) :
    r.TakesRecord delim ⟨before ++ [delim], none⟩ r' where
  of_split before' rest hsplit hno' := by
    obtain ⟨rfl, rfl⟩ := append_cons_inj (hstretch.symm.trans hsplit) hno hno'
    exact ⟨rfl, rfl, hstop⟩
  of_not_mem hnone := by
    rw [hstretch] at hnone
    exact absurd (List.mem_append_right _ List.mem_cons_self) hnone

theorem TakesRecord.of_ended (hno : delim ∉ r.stretch) :
    r.TakesRecord delim ⟨r.stretch, some r.stop⟩ r' where
  of_split before rest hsplit _ := by
    rw [hsplit] at hno
    exact absurd (List.mem_append_right _ List.mem_cons_self) hno
  of_not_mem _ := rfl

/-- A piece of the stretch without a delimiter stands in front of the record. -/
theorem TakesRecord.prepend {r₁ : Reader τ} {b : Bytes} (h : r₁.TakesRecord delim p r')
    (hstretch : r.stretch = b ++ r₁.stretch) (hno : delim ∉ b) (hstop : r₁.stop = r.stop) :
    r.TakesRecord delim ⟨b ++ p.bytes, p.fault⟩ r' where
  of_split before rest hsplit hno' := by
    have hmem : delim ∈ r₁.stretch := by
      have hmem : delim ∈ r.stretch := by
        rw [hsplit]
        exact List.mem_append_right _ List.mem_cons_self
      rw [hstretch, List.mem_append] at hmem
      exact hmem.resolve_left hno
    obtain ⟨before₁, rest₁, hsplit₁, hno₁⟩ := List.eq_append_cons_of_mem hmem
    obtain ⟨rfl, hrest, hstop'⟩ := h.of_split before₁ rest₁ hsplit₁ hno₁
    have hboth : delim ∉ b ++ before₁ := by
      rw [List.mem_append, not_or]
      exact ⟨hno, hno₁⟩
    rw [hstretch, hsplit₁, ← List.append_assoc] at hsplit
    obtain ⟨rfl, rfl⟩ := append_cons_inj hsplit hboth hno'
    exact ⟨by rw [List.append_assoc], hrest, hstop'.trans hstop⟩
  of_not_mem hnone := by
    rw [hstretch, List.mem_append, not_or] at hnone
    rw [h.of_not_mem hnone.2, hstretch, hstop]

/-- Only the stretch ahead and the error behind it matter. -/
theorem TakesRecord.congr {r₁ : Reader τ} (h : r.TakesRecord delim p r₁)
    (hstretch : r'.stretch = r₁.stretch) (hstop : r'.stop = r₁.stop) :
    r.TakesRecord delim p r' where
  of_split before rest hsplit hno := by
    rw [hstretch, hstop]
    exact h.of_split before rest hsplit hno
  of_not_mem := h.of_not_mem

/-- **Scan after scan comes to a record.**  By induction on the scans: each but the last
takes a piece without a delimiter. -/
theorem Collects.takesRecord (hc : r.Collects delim ds p r') (h : r.stop ≠ .bufferFull) :
    r.TakesRecord delim p r' := by
  induction hc with
  | last hs hfault =>
    cases hs.splits with
    | found hp hno hstretch hstop =>
      rw [hp]
      exact .of_found hstretch hno hstop
    | full hfull => exact absurd hfull hfault
    | ended hp hno =>
      rw [hp]
      exact .of_ended hno
  | more hs hfull _ ih =>
    have hfills := hs.fills h hfull
    exact (ih (hfills.stop_eq.symm ▸ h)).prepend hfills.stretch_eq hfills.not_mem hfills.stop_eq

/-- **Collecting a record returns** if the patience exceeds the bytes ahead: each scan but
the last takes some of them. -/
theorem readBytes_takes (h : r.Proper) (delim : UInt8) (hpatience : r.stretch.length < sh.patience) :
    Act.Returns (r.readBytes delim) sh fun (p, r') _ =>
      r.TakesRecord delim p r' ∧ r'.Proper := by
  refine Act.meets_bind.mpr (Act.meets_patience.mpr ?_)
  refine (readBytesRounds_meets (H := fun _ => False) (I := fun rounds r =>
    r.WF ∧ r.stop ≠ .bufferFull ∧ r.stretch.length < rounds) ?_ ?_ ?_ sh.patience [] r
    ⟨h.wf, stop_ne_full_iff.mpr h.fault_ne_full, hpatience⟩).imp ?_
  · rintro rounds r ⟨hwf, -⟩
    exact hwf
  · rintro r ⟨-, -, hlt⟩
    exact absurd hlt (Nat.not_lt_zero _)
  · rintro rounds r ds p r₁ ⟨hwf, hstop, hlt⟩ hs hfault
    have hfills := hs.fills hstop hfault
    have hpos := hwf.size_pos
    have hlength := congrArg List.length hfills.stretch_eq
    rw [List.length_append, hfills.length_eq] at hlength
    refine ⟨hs.wf.noteDelivered _, hfills.stop_eq.symm ▸ hstop, ?_⟩
    show r₁.stretch.length < rounds
    omega
  · rintro ⟨p, r'⟩ sh' ⟨ds, q, hc, rfl⟩
    refine ⟨hc.takesRecord (stop_ne_full_iff.mpr h.fault_ne_full), ?_⟩
    exact Performs.proper (.readBytes hc) h

/-- As a text, a record is decoded as a whole. -/
theorem readString_takes (h : r.Proper) (delim : UInt8)
    (hpatience : r.stretch.length < sh.patience) :
    Act.Returns (r.readString delim) sh fun (t, r') _ => ∃ p, r.TakesRecord delim p r' ∧
      t = (Rune.lossy p.bytes, p.fault) := by
  refine Act.meets_bind.mpr ((readBytes_takes h delim hpatience).imp ?_)
  rintro ⟨p, r₁⟩ sh₁ ⟨htakes, -⟩
  refine Act.meets_bind.mpr ((settle_meets r₁).imp ?_)
  intro r' sh' hs
  exact ⟨p, htakes.congr hs.stretch_eq hs.stop_eq, rfl⟩

/-! ## Record after record -/

/-- The records of a byte string with an error behind it. -/
def records (delim : UInt8) (b : Bytes) (e : Error) : List Passage :=
  (Bytes.ended delim b).map (fun part => ⟨part ++ [delim], none⟩) ++
    [⟨Bytes.leftover delim b, some e⟩]

theorem records_of_not_mem {b : Bytes} (h : delim ∉ b) (e : Error) :
    records delim b e = [⟨b, some e⟩] := by
  rw [records, Bytes.ended_of_not_mem h, Bytes.leftover_of_not_mem h]
  rfl

theorem records_append_cons {before : Bytes} (h : delim ∉ before) (rest : Bytes) (e : Error) :
    records delim (before ++ delim :: rest) e =
      ⟨before ++ [delim], none⟩ :: records delim rest e := by
  rw [records, Bytes.ended_append_cons h, Bytes.leftover_append_cons h]
  rfl

/-- The records are the parts of the byte string, split after the delimiter, and at most an
empty one behind them. -/
theorem bytes_records (delim : UInt8) (b : Bytes) (e : Error) :
    (records delim b e).map Passage.bytes = Bytes.splitInclusive delim b ∨
      (records delim b e).map Passage.bytes = Bytes.splitInclusive delim b ++ [[]] := by
  have hbytes : (records delim b e).map Passage.bytes =
      (Bytes.ended delim b).map (· ++ [delim]) ++ [Bytes.leftover delim b] := by
    simp [records, Function.comp_def]
  rw [hbytes, Bytes.splitInclusive]
  by_cases hempty : Bytes.leftover delim b = []
  · right
    simp [hempty, Bytes.unlessEmpty]
  · left
    rw [Bytes.unlessEmpty_of_ne_nil hempty]

/-- Collected one after another, the records are these passages, whatever becomes in
between of what streams share. -/
def Yields (delim : UInt8) : List Passage → Reader τ → Prop
  | [], _ => True
  | p :: ps, r => ∀ sh : Shared, r.stretch.length < sh.patience →
      Act.Returns (r.readBytes delim) sh fun (q, r') _ => q = p ∧ Yields delim ps r'

/-- **The stretch is split after the delimiter.**  By recursion on the bytes ahead: a record
that ends with the delimiter leaves fewer of them. -/
theorem yields_records (delim : UInt8) (r : Reader τ) (h : r.Proper) :
    Yields delim (records delim r.stretch r.stop) r := by
  by_cases hmem : delim ∈ r.stretch
  · obtain ⟨before, rest, hsplit, hno⟩ := List.eq_append_cons_of_mem hmem
    rw [hsplit, records_append_cons hno]
    intro sh hpatience
    refine (readBytes_takes h delim hpatience).imp ?_
    rintro ⟨p, r'⟩ sh' ⟨htakes, hproper⟩
    obtain ⟨hp, hrest, hstop⟩ := htakes.of_split before rest hsplit hno
    refine ⟨hp, ?_⟩
    have hshorter : r'.stretch.length < r.stretch.length := by
      rw [hrest, hsplit, List.length_append, List.length_cons]
      omega
    have hyields := yields_records delim r' hproper
    rwa [hrest, hstop] at hyields
  · rw [records_of_not_mem hmem]
    intro sh hpatience
    refine (readBytes_takes h delim hpatience).imp ?_
    rintro ⟨p, r'⟩ sh' ⟨htakes, -⟩
    exact ⟨htakes.of_not_mem hmem, trivial⟩
termination_by r.stretch.length

/-! ## Every state -/

/-- **Collecting a record splits after the delimiter.**  Over any erring source, in every
state that the reader may be in: the record is the shortest front of the stretch that ends
with the delimiter, or all of the stretch with the error behind it.  As a text, it is decoded
as a whole, so that characters come back however they are cut.  And one after another the
records are the parts of the stretch, split after the delimiter, and at most an empty one
behind them; only the last reports the error. -/
theorem readBytes_splits {σ : Type} [BulkSource σ] [ErringSource σ] {r : Reader σ}
    (hr : r.Reachable) (delim : UInt8) (sh : Shared) (hpatience : r.stretch.length < sh.patience) :
    Act.Returns (r.readBytes delim) sh (fun (p, r') _ => r.TakesRecord delim p r') ∧
      Act.Returns (r.readString delim) sh (fun (t, r') _ => ∃ p, r.TakesRecord delim p r' ∧
        t = (Rune.lossy p.bytes, p.fault) ∧
        ∀ chars : List Char, p.bytes = chars.flatMap Rune.encode → t.1 = String.ofList chars) ∧
      Yields delim (records delim r.stretch r.stop) r ∧
      ((records delim r.stretch r.stop).map Passage.bytes = Bytes.splitInclusive delim r.stretch ∨
        (records delim r.stretch r.stop).map Passage.bytes =
          Bytes.splitInclusive delim r.stretch ++ [[]]) := by
  have h := hr.proper
  refine ⟨?_, ?_, yields_records delim r h, bytes_records delim r.stretch r.stop⟩
  · exact (readBytes_takes h delim hpatience).imp fun _ _ htakes => htakes.1
  · refine (readString_takes h delim hpatience).imp ?_
    rintro ⟨t, r'⟩ sh' ⟨p, htakes, rfl⟩
    refine ⟨p, htakes, rfl, fun chars hchars => ?_⟩
    show Rune.lossy p.bytes = _
    rw [hchars, Rune.lossy_encodings]

/-- A line longer than the buffer, in which a character lies across its end, and a second
one that fails in the middle. -/
def straddling : Script.Calm where
  source :=
    { items := [.piece [0x61, 0x62, 0x63, 0x64, 0x65, 0x66, 0x67, 0x68, 0x69, 0x6a, 0x6b, 0x6c,
        0x6d, 0x6e, 0x6f, 0xc3] none, .idle 99, .piece [0xa9, 0x0a, 0x70] (some cutOff),
        .piece [0x71, 0x0a] none] }

/-- Some of the first line has been looked at. -/
def peekedStraddling : Reader Script.Calm :=
  match execute (.op (.peek 3) : Task MemorySink) (withCapacity straddling 16 0) { pools := [] } with
  | .ok (_, r) _ => r
  | .error _ _ => withCapacity straddling 16 0

theorem execute_peek_straddling :
    execute (.op (.peek 3) : Task MemorySink) (withCapacity straddling 16 0) { pools := [] } =
      .ok (.outcome (.passage ⟨[0x61, 0x62, 0x63], none⟩), peekedStraddling) { pools := [] } := rfl

theorem readBytes_splits_straddling :
    peekedStraddling.Reachable ∧ peekedStraddling.stretch.length < 20 ∧
      Act.Returns (peekedStraddling.readString 0x0a) { pools := [], patience := 20 }
        (fun (t, _) _ => t = ("abcdefghijklmnoé\n", none)) ∧
      Yields 0x0a (records 0x0a peekedStraddling.stretch cutOff) peekedStraddling := by
  have hreached : peekedStraddling.Reachable :=
    .step (.start straddling 16 0) execute_peek_straddling
  have hstretch : peekedStraddling.stretch =
      ("abcdefghijklmnoé".toList.flatMap Rune.encode) ++ 0x0a :: [0x70] := by decide +kernel
  have hstop : peekedStraddling.stop = cutOff := rfl
  have hpatience : peekedStraddling.stretch.length < 20 := by decide +kernel
  obtain ⟨-, hstring, hyields, -⟩ :=
    readBytes_splits hreached 0x0a { pools := [], patience := 20 } hpatience
  rw [hstop] at hyields
  refine ⟨hreached, hpatience, ?_, hyields⟩
  refine hstring.imp ?_
  rintro ⟨t, r'⟩ sh' ⟨p, htakes, rfl, htext⟩
  obtain ⟨rfl, -, -⟩ := htakes.of_split _ _ hstretch (by decide +kernel)
  refine Prod.ext (htext "abcdefghijklmnoé\n".toList ?_) rfl
  decide +kernel

end Reader

end BufferedStream
