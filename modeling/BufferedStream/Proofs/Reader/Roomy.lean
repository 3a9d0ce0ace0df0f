import BufferedStream.Proofs.Reader.Attested

/-!
# Every call on the source offers room

Whatever is done with a reader, every call that it makes on its source offers room for a
byte at least.  The one call that need not is the first one of a scan that starts on a full
buffer without the delimiter and without a latched error.

* `Reader.Crammed` — a buffer on which a scan starts so.
* `Reader.Performs.roomy` — the calls of every operation but such a scan.
* `Reader.scanUntil_crammed`, `Reader.scanUntil_latched` — a scan that starts on a full
  buffer hands out all of it, and reports the full buffer or the latched error.
* `Reader.execute_offers` — the calls of every operation, and of emptying the reader.
-/

namespace BufferedStream

open History (draws)

namespace Reader

variable {σ κ : Type}

/-- The buffer is full and holds no delimiter, and no error is latched. -/
structure Crammed (delim : UInt8) (r : Reader σ) : Prop where
  full : r.size ≤ r.buffered
  missing : delim ∉ r.window.unread
  fault : r.fault = none

/-- An empty buffer has room. -/
theorem not_crammed_of_empty {delim : UInt8} {r : Reader σ} (h : r.WF)
    (hunread : r.window.unread = []) : ¬ r.Crammed delim := by
  intro hc
  have hpos := h.size_pos
  have hfull := hc.full
  rw [buffered, hunread] at hfull
  exact absurd hpos (Nat.not_lt_of_le hfull)

/-- The delimiter that an operation scans for. -/
def Op.delimiter? : Op → Option UInt8
  | .readSlice delim | .readBytes delim | .readString delim => some delim
  | .readLine => some newline
  | _ => none

/-- The operation is a scan that starts on a crammed buffer. -/
def Op.StartsCrammed (r : Reader σ) (op : Op) : Prop :=
  ∃ delim, op.delimiter? = some delim ∧ r.Crammed delim

/-- Emptying a reader scans for nothing. -/
def Task.StartsCrammed (r : Reader σ) : Task κ → Prop
  | .op operation => operation.StartsCrammed r
  | .writeTo _ => False

variable [ByteSource σ] {r r' : Reader σ} {ds : List Draw}

/-! ## Calls that are not the first of a scan -/

/-- A reader that calls only for want of bytes offers the whole buffer. -/
theorem Pulled.roomy_of_empty (hp : r.Pulled ds r') (h : r.WF)
    (hunread : ds ≠ [] → r.window.unread = []) : ∀ d ∈ ds, 0 < d.offered := by
  apply hp.roomy
  intro hne
  rw [buffered, hunread hne]
  exact h.size_pos

theorem Peeks.roomy {n : Nat} {p : Passage} (hp : r.Peeks n ds p r') :
    ∀ d ∈ ds, 0 < d.offered := by
  cases hp with
  | tooLarge => simp
  | seen hp hroom => exact hp.roomy hroom
  | short hp hroom => exact hp.roomy hroom

theorem ReadsInto.roomy {room : Room} {g : Reading} (hr : r.ReadsInto room ds g r') (h : r.WF) :
    ∀ d ∈ ds, 0 < d.offered := by
  cases hr with
  | nothing => simp
  | through hroom =>
    intro d hd
    obtain rfl := List.mem_singleton.mp hd
    exact hroom
  | delivered _ hp hunread => exact hp.roomy_of_empty h hunread
  | dry _ hp hunread => exact hp.roomy_of_empty h hunread

theorem ReadsPlain.roomy {room : Room} {g : Except IoError Grant}
    (hg : r.ReadsPlain room ds g r') (h : r.WF) : ∀ d ∈ ds, 0 < d.offered := by
  cases hg with
  | delivered hr => exact hr.roomy h
  | ended hr => exact hr.roomy h
  | failed _ hr => exact hr.roomy h

theorem ReadsByte.roomy {b : Except Error UInt8} (hb : r.ReadsByte ds b r') (h : r.WF) :
    ∀ d ∈ ds, 0 < d.offered := by
  cases hb with
  | got hp hunread => exact hp.roomy_of_empty h.forgetRune hunread
  | failed hp hunread => exact hp.roomy_of_empty h.forgetRune hunread

theorem ReadsRune.roomy {c : Except Error (Char × Nat)} (hc : r.ReadsRune ds c r') :
    ∀ d ∈ ds, 0 < d.offered := by
  cases hc with
  | got hp hroom => exact hp.roomy hroom
  | failed hp hroom => exact hp.roomy hroom

theorem ShowsBuffer.roomy {b : Except IoError Bytes} (hb : r.ShowsBuffer ds b r') (h : r.WF) :
    ∀ d ∈ ds, 0 < d.offered := by
  cases hb with
  | shown hp hunread => exact hp.roomy_of_empty h hunread
  | ended hp hunread => exact hp.roomy_of_empty h hunread
  | failed _ hp hunread => exact hp.roomy_of_empty h hunread

/-! ## Scans -/

/-- A scan calls only for a delimiter that is not there, and while no error is latched. -/
theorem Scans.roomy {delim : UInt8} {p : Passage} (hs : r.Scans delim ds p r')
    (hcrammed : ¬ r.Crammed delim) : ∀ d ∈ ds, 0 < d.offered := by
  have hroomy : ∀ {r₁ : Reader σ}, r.Pulled ds r₁ → (ds ≠ [] → delim ∉ r.window.unread) →
      ∀ d ∈ ds, 0 < d.offered := by
    intro r₁ hp hmissing
    apply hp.roomy
    intro hne
    apply Nat.lt_of_not_le
    intro hfull
    exact hcrammed ⟨hfull, hmissing hne, hp.fault_of_calls hne⟩
  have hbefore : ∀ {r₁ : Reader σ}, r.Pulled ds r₁ → delim ∉ r₁.window.unread →
      delim ∉ r.window.unread := by
    intro r₁ hp hno hmem
    rw [hp.unread] at hno
    exact hno (List.mem_append_left _ hmem)
  cases hs with
  | found hp hnew => exact hroomy hp hnew
  | full hp _ hno => exact hroomy hp fun _ => hbefore hp hno
  | ended hp hno => exact hroomy hp fun _ => hbefore hp hno

theorem ReadsLine.roomy {l : Except Error (Bytes × Bool)} (hl : r.ReadsLine ds l r')
    (hcrammed : ¬ r.Crammed newline) : ∀ d ∈ ds, 0 < d.offered := by
  cases hl with
  | piece hs => exact hs.roomy hcrammed
  | line hs => exact hs.roomy hcrammed
  | failed hs => exact hs.roomy hcrammed

/-- By induction on the scans: all but the first start on an empty buffer. -/
theorem Collects.roomy {delim : UInt8} {p : Passage} (hc : r.Collects delim ds p r')
    (hcrammed : ¬ r.Crammed delim) : ∀ d ∈ ds, 0 < d.offered := by
  induction hc with
  | last hs => exact hs.roomy hcrammed
  | more hs hfault _ ih =>
    intro d hd
    rcases List.mem_append.mp hd with hd | hd
    · exact hs.roomy hcrammed d hd
    · exact ih (not_crammed_of_empty (hs.wf.noteDelivered _) (hs.past_of_full hfault).1) d hd

/-- **Every call offers room**, unless a scan starts on a crammed buffer. -/
theorem Performs.roomy {op : Op} {outcome : Outcome} (hp : r.Performs op ds outcome r') (h : r.WF)
    (hcrammed : ¬ op.StartsCrammed r) : ∀ d ∈ ds, 0 < d.offered := by
  have hscan : ∀ delim, op.delimiter? = some delim → ¬ r.Crammed delim := fun delim hdelim hc =>
    hcrammed ⟨delim, hdelim, hc⟩
  cases hp with
  | peek hp => exact hp.roomy
  | read hr => exact hr.roomy h
  | readByte hb => exact hb.roomy h
  | unreadByte => simp
  | readRune hc => exact hc.roomy
  | unreadRune => simp
  | readSlice hs => exact hs.roomy (hscan _ rfl)
  | readLine hl => exact hl.roomy (hscan _ rfl)
  | readBytes hc => exact hc.roomy (hscan _ rfl)
  | readString hc => exact hc.roomy (hscan _ rfl)
  | plainRead hg => exact hg.roomy h
  | fillBuf hb => exact hb.roomy h
  | consume => simp
  | adapt => simp

/-! ## Scans that start on a full buffer -/

variable {H : Halt → Prop} {sh : Shared} [HonestSource H σ]

/-- **A scan on a crammed buffer reports that it is full.**  It makes one call on the
source, which cannot hand out anything. -/
theorem scanUntil_crammed {delim : UInt8} (h : r.WF) (hc : r.Crammed delim) :
    Act.Meets H (r.scanUntil delim) sh fun (p, r') _ =>
      p = ⟨r.window.unread, some .bufferFull⟩ ∧ (∃ d, Calls r.source [d] r'.source) ∧ r'.WF ∧
        r'.window.unread = [] := by
  unfold scanUntil
  rw [List.idxOf?_eq_none_iff.mpr hc.missing]
  dsimp only
  unfold scanRounds
  rw [hc.fault]
  dsimp only
  refine Act.meets_bind.mpr ((fill_meets r).imp ?_)
  intro r₁ sh₁ hfilled
  obtain ⟨ds, hf⟩ := hfilled
  have hwf := hf.wf h
  have hfull := hc.full
  obtain ⟨s, fault, spare, length, hcalls, hmade, rfl⟩ := hf
  rw [Nat.sub_eq_zero_of_le hfull] at hmade
  cases hmade with
  | @brought _ g _ hcount hle =>
    have hdata : g.data = [] := List.eq_nil_of_length_eq_zero (by omega)
    have hunread : (r.taking s [⟨0, g⟩] g.fault spare length).window.unread = r.window.unread := by
      simp [taking, hdata]
    rw [hunread, show r.window.unread.drop r.buffered = [] from List.drop_length]
    rw [show ([] : Bytes).idxOf? delim = none from rfl]
    dsimp only
    rw [if_pos (by rw [buffered, hunread]; exact hfull)]
    refine ⟨?_, ⟨_, hcalls⟩, hwf.exhausted, rfl⟩
    rw [handOutAll, hunread]
  | again h0 => exact absurd h0 (Nat.lt_irrefl 0)

omit [HonestSource H σ] in
/-- **With an error latched a scan reports that one**, and calls nothing. -/
theorem scanUntil_latched {delim : UInt8} {e : Error} (hmissing : delim ∉ r.window.unread)
    (hfault : r.fault = some e) :
    Act.Meets H (r.scanUntil delim) sh fun (p, r') _ =>
      p = ⟨r.window.unread, some e⟩ ∧ r'.source = r.source ∧ r'.fault = none := by
  unfold scanUntil
  rw [List.idxOf?_eq_none_iff.mpr hmissing]
  dsimp only
  unfold scanRounds
  rw [hfault]
  dsimp only [handOutAll]
  split
  · refine Act.meets_bind.mpr ((settle_meets _).imp ?_)
    intro r₁ sh₁ hs
    exact ⟨rfl, hs.source_eq, rfl⟩
  · exact ⟨rfl, rfl, rfl⟩

omit [ByteSource σ] [HonestSource H σ] in
/-- Holding a carriage return back calls nothing. -/
theorem source_holdBackReturn (b : Bytes) (r : Reader σ) :
    (r.holdBackReturn b).2.source = r.source := by
  unfold holdBackReturn
  split <;> rfl

theorem readSlice_crammed {delim : UInt8} (h : r.WF) (hc : r.Crammed delim) :
    Act.Meets H (r.readSlice delim) sh fun (p, r') _ =>
      p.fault = some .bufferFull ∧ (∃ d, Calls r.source [d] r'.source) ∧ r'.WF ∧
        r'.window.unread = [] := by
  refine Act.meets_bind.mpr ((scanUntil_crammed h hc).imp ?_)
  intro ⟨p, r₁⟩ sh₁ ⟨hp, hcalls, hwf, hunread⟩
  subst hp
  exact ⟨rfl, hcalls, hwf.noteDelivered _, hunread⟩

theorem readLine_crammed (h : r.WF) (hc : r.Crammed newline) :
    Act.Meets H r.readLine sh fun (_, r') _ => ∃ d, Calls r.source [d] r'.source := by
  refine Act.meets_bind.mpr ((scanUntil_crammed h hc).imp ?_)
  intro ⟨p, r₁⟩ sh₁ ⟨hp, ⟨d, hcall⟩, _⟩
  subst hp
  refine ⟨d, ?_⟩
  show Calls r.source [d] (r₁.holdBackReturn r.window.unread).2.source
  rw [source_holdBackReturn]
  exact hcall

/-- The pieces of a record that follow the first start on an empty buffer. -/
theorem readBytes_crammed (hH : H .exhausted) {delim : UInt8} (h : r.WF) (hc : r.Crammed delim) :
    Act.Meets H (r.readBytes delim) sh fun (_, r') _ =>
      ∃ d es, Calls r.source (d :: es) r'.source ∧ ∀ d ∈ es, 0 < d.offered := by
  refine Act.meets_bind.mpr (Act.meets_patience.mpr ?_)
  cases sh.patience with
  | zero => exact hH
  | succ rounds =>
    rw [readBytesRounds]
    refine Act.meets_bind.mpr ((readSlice_crammed h hc).imp ?_)
    rintro ⟨p, r₁⟩ sh₁ ⟨hp, ⟨d, hcall⟩, hwf, hunread⟩
    dsimp only at hp ⊢
    rw [hp]
    dsimp only
    refine (readBytesRounds_meets (I := fun _ r => r.WF) (fun _ _ h => h) (fun _ _ => hH)
      (fun _ _ _ _ _ _ hs _ => hs.wf.noteDelivered _) rounds _ r₁ hwf).imp ?_
    rintro ⟨p', r'⟩ sh₂ ⟨es, q, hcollects, -⟩
    exact ⟨d, es, hcall.append hcollects.calls,
      hcollects.roomy (not_crammed_of_empty hwf hunread)⟩

/-- The calls of an operation that scans a crammed buffer: only the first may offer no room. -/
theorem perform_crammed (hH : H .exhausted) {op : Op} (h : r.WF) (hc : op.StartsCrammed r) :
    Act.Meets H (perform op r) sh fun (_, r') _ => ∃ d es, Calls r.source (d :: es) r'.source ∧
      ∀ d ∈ es, 0 < d.offered := by
  obtain ⟨delim, hdelim, hc⟩ := hc
  cases op with
  | readSlice =>
    obtain rfl : _ = delim := Option.some.inj hdelim
    refine Act.meets_bind.mpr ((readSlice_crammed h hc).imp ?_)
    intro ⟨p, r'⟩ sh' ⟨_, ⟨d, hcall⟩, _⟩
    exact ⟨d, [], hcall, by simp⟩
  | readLine =>
    obtain rfl : newline = delim := Option.some.inj hdelim
    refine Act.meets_bind.mpr ((readLine_crammed h hc).imp ?_)
    intro ⟨l, r'⟩ sh' ⟨d, hcall⟩
    exact ⟨d, [], hcall, by simp⟩
  | readBytes =>
    obtain rfl : _ = delim := Option.some.inj hdelim
    exact Act.meets_bind.mpr (readBytes_crammed hH h hc)
  | readString =>
    obtain rfl : _ = delim := Option.some.inj hdelim
    refine Act.meets_bind.mpr (Act.meets_bind.mpr ((readBytes_crammed hH h hc).imp ?_))
    intro ⟨p, r₁⟩ sh₁ ⟨d, es, hcalls, hroomy⟩
    refine Act.meets_bind.mpr ((settle_meets r₁).imp ?_)
    intro r' sh' hs
    exact ⟨d, es, hs.source_eq ▸ hcalls, hroomy⟩
  | _ => cases hdelim

/-! ## Whatever is done with a reader -/

/-- **The calls of whatever is done with a reader**: all but the first offer room, and the
first does unless it is that of a scan on a crammed buffer. -/
theorem execute_offers {σ κ : Type} [BulkSource σ] [HonestSource (· = Halt.exhausted) σ]
    [HonestBulkSource (· = Halt.exhausted) σ] [ByteSink κ] [Keeping κ]
    [HonestSink (· = Halt.exhausted) κ] {r : Reader (Traced σ)} (hr : r.Reachable) (task : Task κ)
    (sh : Shared) :
    Act.Keeps (execute task r) sh fun x _ => ∃ ds, draws x.2.source = draws r.source ++ ds ∧
      (∀ d ∈ ds.tail, 0 < d.offered) ∧ (¬ task.StartsCrammed r → ∀ d ∈ ds, 0 < d.offered) := by
  cases task with
  | op op =>
    by_cases hc : op.StartsCrammed r
    · refine Act.meets_bind.mpr ((perform_crammed (H := (· = Halt.exhausted)) rfl hr.wf hc).imp ?_)
      intro ⟨outcome, r'⟩ sh' ⟨d, es, hcalls, hroomy⟩
      exact ⟨d :: es, draws_of_calls hcalls, hroomy, fun hnot => absurd hc hnot⟩
    · refine Act.meets_bind.mpr ((perform_meets (H := (· = Halt.exhausted)) rfl op hr.wf).imp ?_)
      intro ⟨outcome, r'⟩ sh' ⟨ds, hp⟩
      have hroomy := hp.roomy hr.wf hc
      exact ⟨ds, draws_of_calls hp.calls, fun d hd => hroomy d (List.mem_of_mem_tail hd),
        fun _ => hroomy⟩
  | writeTo k =>
    refine Act.meets_bind.mpr ((writeTo_pours (H := (· = Halt.exhausted)) rfl hr.wf k).imp ?_)
    intro ⟨receipt, r', k'⟩ sh' ⟨ds, hpours⟩
    exact ⟨ds, hpours.draws_eq, fun d hd => hpours.roomy d (List.mem_of_mem_tail hd),
      fun _ => hpours.roomy⟩

end Reader

end BufferedStream
