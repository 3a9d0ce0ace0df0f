import BufferedStream.Proofs.Reader.NextLine
import BufferedStream.Proofs.Reader.Surfacing

/-!
# What becomes of an error while lines are read

Reading a line reports an error or hands out bytes, never both.  So an error that comes
behind a whole line, or behind a full buffer, stays latched; one with nothing in front of it
is reported.  But one that comes behind the first bytes of a line is let go of with them:
they are handed out as if the line were complete, and nothing ever tells of the error.

* `Reader.LineFate` — the next line, told from the bytes up to the error that is pending,
  and what becomes of this error.
* `Reader.ReadsLine.fate` — reading a line, in these terms.
* `Reader.run_tells_fate_of_each_error` — every error of a whole run is reported once and in
  place, let go of, or still latched.
-/

namespace BufferedStream

open History (draws)

/-- What became of an error. -/
inductive Fate where
  | reported (e : Error)
  /-- It came behind the first bytes of a line, and was let go of with them. -/
  | lost (e : Error)

def Fate.error : Fate → Error
  | .reported e => e
  | .lost e => e

/-- The books of a run that reads lines. -/
structure LineLedger where
  /-- The calls made on the source so far. -/
  draws : List Draw := []
  /-- The errors that arose in them. -/
  arisen : List Error := []
  /-- What became of them, one after the other. -/
  fates : List Fate := []
  unread : Bytes := []
  latched : Option Error := none

namespace Reader

/-! ## One line -/

/-- What comes of reading a line with a buffer of the given size, when `ahead` are the bytes
up to the error that is pending, if one is.  The bytes `left` stay unread, and the error
stays latched or meets its fate. -/
inductive LineFate (size : Nat) (ahead : Bytes) (pending : Option Error) :
    Except Error (Bytes × Bool) → (left : Bytes) → (latched : Option Error) → List Fate → Prop
  | line {before left : Bytes} (hahead : ahead = before ++ newline :: left)
      (hno : newline ∉ before) :
      LineFate size ahead pending (.ok (dropReturn before, false)) left pending []
  | piece {left : Bytes} (hno : newline ∉ ahead) (hfull : ahead.length = size)
      (hahead : ahead = dropReturn ahead ++ left) :
      LineFate size ahead pending (.ok (dropReturn ahead, true)) left pending []
  | failed {e : Error} (hempty : ahead = []) (hpending : pending = some e) :
      LineFate size ahead pending (.error e) [] none [.reported e]
  /-- The line is cut short by the error, and passes for a complete one. -/
  | torn {e : Error} (hno : newline ∉ ahead) (hne : ahead ≠ []) (hroom : ahead.length < size)
      (hpending : pending = some e) :
      LineFate size ahead pending (.ok (ahead, false)) [] none [.lost e]

variable {size : Nat} {ahead left : Bytes} {pending latched : Option Error} {fs : List Fate}
  {l : Except Error (Bytes × Bool)}

/-- The error that was pending met its fate, or it is latched. -/
theorem LineFate.balance (h : LineFate size ahead pending l left latched fs) :
    pending.toList = fs.map Fate.error ++ latched.toList := by
  cases h with
  | line => rfl
  | piece => rfl
  | failed _ hpending => rw [hpending]; rfl
  | torn _ _ _ hpending => rw [hpending]; rfl

/-- What is left does not fill the buffer. -/
theorem LineFate.left_lt (h : LineFate size ahead pending l left latched fs) (hsize : 1 < size)
    (hle : ahead.length ≤ size) : left.length < size := by
  cases h with
  | @line before left hahead =>
    have hlength := congrArg List.length hahead
    rw [List.length_append, List.length_cons] at hlength
    omega
  | piece _ hfull hahead =>
    have hlength := congrArg List.length hahead
    have hdropped := length_le_dropReturn ahead
    rw [List.length_append] at hlength
    omega
  | failed => exact Nat.lt_of_succ_lt hsize
  | torn => exact Nat.lt_of_succ_lt hsize

section Reads

variable {σ : Type} [ByteSource σ] {r r' : Reader σ} {ds : List Draw}

/-- What reading a line comes to is told from the filled buffer `r₁`: the line from its bytes,
and the fate of the error from what is latched in it. -/
structure FilledLine (r : Reader σ) (ds : List Draw) (l : Except Error (Bytes × Bool))
    (r' r₁ : Reader σ) (fs : List Fate) : Prop where
  pulled : r.Pulled ds r₁
  size : r'.size = r₁.size
  fate : LineFate r₁.size r₁.window.unread r₁.fault l r'.window.unread r'.fault fs

/-- A buffer that was not full before is not full if the scan ended with an error. -/
theorem Pulled.not_full {r₁ : Reader σ} (hp : r.Pulled ds r₁) (hroom : r.buffered < r.size)
    (hcalls : ds ≠ [] → r₁.buffered < r₁.size) : r₁.buffered < r₁.size := by
  by_cases hds : ds = []
  · subst hds
    rw [buffered, hp.unread, hp.size, drawn_nil, List.append_nil]
    exact hroom
  · exact hcalls hds

/-- **What reading a line does to the error that is pending.** -/
theorem ReadsLine.fate (hl : r.ReadsLine ds l r') (hforeign : Foreign r.fault ds)
    (hroom : r.buffered < r.size) : ∃ r₁ fs, FilledLine r ds l r' r₁ fs := by
  cases hl with
  | @piece p r₀ r₂ b hs hfault hb =>
    have hpiece : b = dropReturn p.bytes := by rw [← r₀.holdBackReturn_fst, hb]
    have hsplit := (hs.holdBack hfault hb).1
    have hsame : r₂.size = r₀.size ∧ r₂.fault = r₀.fault := by
      rcases holdBackReturn_eq hb with ⟨-, rfl⟩ | ⟨-, rfl⟩ <;> exact ⟨rfl, rfl⟩
    subst hpiece
    cases hs with
    | found => cases hfault
    | @full r₁ hp _ hno hfull =>
      refine ⟨r₁, [], hp, hsame.1, ?_⟩
      show LineFate _ _ _ _ _ r₂.fault _
      rw [hsame.2]
      exact .piece hno (Nat.le_antisymm hp.wf.buffered_le hfull) hsplit
    | ended hp _ he =>
      rw [Option.some.inj hfault] at he
      exact absurd he (hp.fault_ne hforeign)
  | @line p r₀ hs hfault hne =>
    cases hs with
    | @found r₁ i hp _ hi =>
      obtain ⟨before, htake, hunread, hno⟩ := exists_append_of_idxOf? hi
      refine ⟨r₁, [], hp, rfl, ?_⟩
      rw [htake, stripLineEnd_concat]
      exact .line hunread hno
    | full => exact absurd rfl hfault
    | @ended r₁ r₂ e hp hno he hs hcalls =>
      refine ⟨r₁, [.lost e], hp, hs.size_eq, ?_⟩
      show LineFate _ _ _ _ r₂.window.unread none _
      rw [hs.unread_eq, stripLineEnd_of_not_mem hno]
      exact .torn hno hne (hp.not_full hroom hcalls) he
  | @failed e r₀ hs hfull =>
    generalize hpassage : (⟨[], some e⟩ : Passage) = p at hs
    cases hs with
    | found => cases congrArg Passage.fault hpassage
    | full => exact absurd (Option.some.inj (congrArg Passage.fault hpassage)) hfull
    | @ended r₁ r₂ e' hp _ he hs =>
      obtain ⟨hempty, hsome⟩ := Passage.mk.inj hpassage
      refine ⟨r₁, [.reported e], hp, hs.size_eq, ?_⟩
      show LineFate _ _ _ _ r₂.window.unread none _
      rw [hs.unread_eq]
      exact .failed hempty.symm (he.trans hsome.symm)

/-! ## Keeping the books -/

variable [History σ]

/-- What reading a line enters in the books: the calls `ds` that it made and the fate `fs` of
the error that was pending. -/
structure LineEnters (entry : Entry Op Outcome (Reader σ)) (t t' : LineLedger) (ds : List Draw)
    (fs : List Fate) : Prop where
  draws : t'.draws = t.draws ++ ds
  source : t'.draws = History.draws entry.state.source
  arisen : t'.arisen = t.arisen ++ arisen ds
  fates : t'.fates = t.fates ++ fs
  unread : t'.unread = entry.state.window.unread
  latched : t'.latched = entry.state.fault
  /-- No call is made while an error is latched. -/
  unlatched : ds ≠ [] → t.latched = none
  fate : ∃ pending l, pending.toList = t.latched.toList ++ Reader.arisen ds ∧
    entry.outcome = .line l ∧
    LineFate entry.state.size (t.unread ++ drawn ds) pending l t'.unread t'.latched fs

/-- One entry of a run in the books: every error that arose met one fate, or is latched. -/
def LineBooked (entry : Entry Op Outcome (Reader σ)) (t t' : LineLedger) : Prop :=
  (∃ ds fs, LineEnters entry t t' ds fs) ∧
    t'.arisen = t'.fates.map Fate.error ++ t'.latched.toList

/-- The books tell the state of the reader, whose source was `s` at first. -/
structure InLineBooks (s : σ) (r : Reader σ) (t : LineLedger) : Prop where
  wf : r.WF
  roomy : r.buffered < r.size
  source : t.draws = draws r.source
  calls : Calls s t.draws r.source
  unread : t.unread = r.window.unread
  latched : t.latched = r.fault
  foreign : r.fault ≠ some .bufferFull
  balance : t.arisen = t.fates.map Fate.error ++ t.latched.toList

variable {s : σ} {t : LineLedger}

/-- **Reading a line keeps the books.** -/
theorem InLineBooks.reads (h : InLineBooks s r t) (hown : NeverFull s)
    (hl : r.ReadsLine ds l r') :
    ∃ t', LineBooked ⟨.readLine, .line l, r'⟩ t t' ∧ InLineBooks s r' t' := by
  have hcalls := h.calls.append hl.calls
  have hforeign : Foreign r.fault ds := foreign_of_neverFull hown hcalls h.foreign
  obtain ⟨r₁, fs, hp, hsize, hfate⟩ := hl.fate hforeign h.roomy
  have hpending : r₁.fault.toList = t.latched.toList ++ arisen ds := h.latched ▸ hp.latched
  have hunread : r₁.window.unread = t.unread ++ drawn ds := h.unread ▸ hp.unread
  have hdraws : t.draws ++ ds = draws r'.source := by
    rw [h.source, draws_of_calls hl.calls]
  have hbalance : t.arisen ++ arisen ds = (t.fates ++ fs).map Fate.error ++ r'.fault.toList := by
    rw [h.balance, List.append_assoc, ← hpending, hfate.balance, List.map_append,
      List.append_assoc]
  have hleft := hfate.left_lt (Nat.lt_of_lt_of_le (by decide) hp.wf.size_ge) hp.wf.buffered_le
  refine ⟨⟨t.draws ++ ds, t.arisen ++ arisen ds, t.fates ++ fs, r'.window.unread, r'.fault⟩,
    ⟨⟨ds, fs, ?_⟩, hbalance⟩, ?_⟩
  · exact
      { draws := rfl
        source := hdraws
        arisen := rfl
        fates := rfl
        unread := rfl
        latched := rfl
        unlatched := fun hds => h.latched ▸ hp.fault_of_calls hds
        fate := ⟨r₁.fault, l, hpending, rfl, hsize ▸ hunread ▸ hfate⟩ }
  · exact
      { wf := hl.wf
        roomy := hsize ▸ hleft
        source := hdraws
        calls := hcalls
        unread := rfl
        latched := rfl
        foreign := hl.fault_ne_full hforeign
        balance := hbalance }

/-- One step of a run that reads lines. -/
def StepsByLine (r : Reader σ) (op : Op) (outcome : Outcome) (r' : Reader σ) : Prop :=
  ∃ ds l, op = .readLine ∧ outcome = .line l ∧ r.ReadsLine ds l r'

end Reads

/-- **Lines are read with each error met by one fate.**  Over any honest source whose errors
are its own, every run that reads lines can be booked: each error that arises is reported by
one call, the first that finds no byte in front of it; or it comes behind the first bytes of
a line and is lost with the call that hands them out as if they were a whole line; or it is
still latched. -/
theorem run_tells_fate_of_each_error {σ : Type} [ByteSource σ] {H : Halt → Prop}
    [HonestSource H σ] (s : σ) (hown : NeverFull s) (size : Nat) (pool : PoolId) (lines : Nat)
    (sh : Shared) :
    Act.Meets H (Act.performAll perform (List.replicate lines .readLine)
        (withCapacity (Traced.start s) size pool)) sh
      fun entries _ =>
        entries.map Entry.op = List.replicate lines .readLine ∧ Follows LineBooked {} entries := by
  have hown : NeverFull (Traced.start s) := Traced.neverFull hown
  have hstart : InLineBooks (Traced.start s) (withCapacity (Traced.start s) size pool) {} :=
    { wf := wf_withCapacity _ size pool
      roomy := (wf_withCapacity _ size pool).size_pos
      source := rfl
      calls := .nil _
      unread := rfl
      latched := rfl
      foreign := nofun
      balance := rfl }
  have hstep : ∀ op ∈ List.replicate lines Op.readLine, ∀ (r : Reader (Traced σ)) sh, r.WF →
      Act.Meets H (perform op r) sh fun (outcome, r') _ =>
        r.StepsByLine op outcome r' ∧ r'.WF := by
    intro op hop r sh hwf
    obtain rfl := List.eq_of_mem_replicate hop
    refine Act.meets_bind.mpr ((readLine_meets hwf).imp ?_)
    rintro ⟨l, r'⟩ sh' ⟨ds, hl⟩
    exact ⟨⟨ds, l, rfl, rfl, hl⟩, hl.wf⟩
  refine (Act.performAll_meets _ hstep hstart.wf sh).imp ?_
  rintro entries sh' ⟨hchain, hops⟩
  refine ⟨hops, hchain.follows (R := InLineBooks (Traced.start s)) ?_ hstart⟩
  rintro r t op outcome r' ht ⟨ds, l, rfl, rfl, hl⟩
  exact ht.reads hown hl

/-- The connection is cut off inside a line, and works again afterwards. -/
def tornLine : Script.Truthful where
  source := { items := [.piece [0x61, 0x62] (some cutOff), .piece [0x63, 0x0a] none] }

theorem run_tells_fate_of_each_error_tornLine :
    ∃ entries sh',
      Act.performAll perform (List.replicate 3 .readLine)
        (withCapacity (Traced.start tornLine) 16 0) { pools := [] } = .ok entries sh' ∧
      entries.map Entry.op = List.replicate 3 .readLine ∧ Follows LineBooked {} entries :=
  (run_tells_fate_of_each_error (H := fun _ => False) tornLine (tornLine.neverFull rfl) 16 0 3
    _).exists_of_ends (by decide +kernel)

/-- The line that was cut off passes for a whole one, and the next call goes on behind it. -/
theorem tornLine_passes_for_whole :
    ∃ r₁ sh₁ r₂ sh₂,
      (withCapacity tornLine 16 0).readLine { pools := [] } =
          .ok (.ok ([0x61, 0x62], false), r₁) sh₁ ∧
        r₁.readLine sh₁ = .ok (.ok ([0x63], false), r₂) sh₂ :=
  ⟨_, _, _, _, rfl, rfl⟩

end Reader

end BufferedStream
