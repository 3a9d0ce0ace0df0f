import BufferedStream.Proofs.Reader.Records
import BufferedStream.Proofs.Stack.Layer

/-!
# The stretch ahead of a reader

A source hands out bytes up to its next error, now and then nothing, and more after
the error (`ErringSource`).  Ahead of a reader over it lies a *stretch*: the unread
bytes and, unless an error is latched, those that the source has before its next
error.  With the error behind it, the stretch decides how a scan ends, whatever the
buffer and the pieces in which the bytes come.

* `ErringSource.calls_report`, `ErringSource.calls_lead` — a row of calls that raises nothing
  before its last call.
* `Reader.Pulled.stretch_eq`, `Reader.Pulled.stop_eq` — filling the buffer changes
  neither the stretch nor the error behind it.
* `Reader.Scans.splits`, `Reader.Scans.fills` — what a scan takes from the stretch, and when
  it fills the buffer.
-/

namespace BufferedStream

/-- An honest source that hands out bytes up to an error, may hand out nothing in
between, but not so often in a row that a reader gives up, and never reports a full
buffer.  After the error it goes on in the same way. -/
class ErringSource (τ : Type) [ByteSource τ] extends HonestSource (fun _ => False) τ where
  /-- The bytes to be handed out before the next error. -/
  ahead : τ → Bytes
  /-- The next error. -/
  stop : τ → Error
  /-- How often the source may hand out nothing before it brings bytes or the error. -/
  pauses : τ → Nat
  stop_ne_full (s : τ) : stop s ≠ .bufferFull
  pauses_lt (s : τ) : pauses s < maxEmptyReads
  goes_of_reads {s s' : τ} {n : Nat} {g : Reading} : ByteSource.Reads s n g s' →
    g.fault = none → ahead s = g.data ++ ahead s' ∧ stop s' = stop s
  stops_of_reads {s s' : τ} {n : Nat} {g : Reading} {e : Error} : ByteSource.Reads s n g s' →
    g.fault = some e → ahead s = g.data ∧ stop s = e
  /-- Offered room, the source brings bytes or the error, or pauses once more. -/
  pauses_of_reads {s s' : τ} {n : Nat} {g : Reading} : ByteSource.Reads s n g s' →
    g.fault = none → 0 < n → g.data = [] → pauses s' < pauses s

/-- An erring source whose only error is the end of the stream: it is reported once the
bytes are gone, and every time after that. -/
class EndingSource (τ : Type) [ByteSource τ] extends ErringSource τ where
  stop_eq (s : τ) : stop s = .eof
  ends_of_reads {s s' : τ} {n : Nat} {g : Reading} : ByteSource.Reads s n g s' →
    g.fault = some .eof → ahead s' = []

/-- A finite source ends, and never pauses. -/
instance {τ : Type} [ByteSource τ] [FiniteSource τ] : EndingSource τ where
  toHonestSource := FiniteSource.toHonestSource
  ahead := FiniteSource.remaining
  stop _ := .eof
  pauses _ := 0
  stop_ne_full _ := by rintro ⟨⟩
  pauses_lt _ := Reader.maxEmptyReads_pos
  goes_of_reads h _ := ⟨FiniteSource.remaining_of_reads h, rfl⟩
  stops_of_reads h he := by
    rcases FiniteSource.fault_of_reads h with hnone | ⟨heof, hend⟩
    · rw [hnone] at he
      cases he
    · refine ⟨?_, Option.some.inj (heof.symm.trans he)⟩
      rw [FiniteSource.remaining_of_reads h, hend, List.append_nil]
  pauses_of_reads h hnone hn hdata := by
    rw [FiniteSource.brings_of_reads h hn hdata] at hnone
    cases hnone
  stop_eq _ := rfl
  ends_of_reads h heof := by
    rcases FiniteSource.fault_of_reads h with hnone | ⟨-, hend⟩
    · rw [hnone] at heof
      cases heof
    · exact hend

namespace ErringSource

variable {τ : Type} [ByteSource τ] [ErringSource τ] {s s' : τ} {ds : List Draw}

open Reader (arisen arisenAfter)

/-- By induction on the calls, which begin after `idle` idle ones: either none of them
reports an error and nothing arises, or the last one alone does, and its error arises.  The
idle calls so far and the pauses to come stay below the limit together. -/
theorem calls_report (h : Calls s ds s') {idle : Nat} (hidle : idle + pauses s < maxEmptyReads)
    (hquiet : arisenAfter idle ds.dropLast = []) :
    (arisenAfter idle ds = [] ∧ ∀ d ∈ ds, d.reading.fault = none) ∨
      ∃ es s₁ d e, ds = es ++ [d] ∧ Calls s es s₁ ∧ (∀ d ∈ es, d.reading.fault = none) ∧
        ByteSource.Reads s₁ d.offered d.reading s' ∧ d.reading.fault = some e ∧
        arisenAfter idle ds = [e] := by
  induction h generalizing idle with
  | nil => exact .inl ⟨rfl, by simp⟩
  | @cons s s₁ s₂ n g ds hreads hcalls ih =>
    cases hfault : g.fault with
    | some e =>
      have hraised : ∀ es, arisenAfter idle (⟨n, g⟩ :: es) = e :: arisen es := fun es => by
        rw [Reader.arisenAfter_brought idle es (.inl (by rw [hfault]; rfl)),
          show (⟨n, g⟩ : Draw).reading.fault = some e from hfault]
        rfl
      cases ds with
      | nil =>
        refine .inr ⟨[], s, ⟨n, g⟩, e, rfl, .nil s, by simp, ?_, hfault, hraised []⟩
        rwa [hcalls.nil_eq]
      | cons d ds =>
        rw [List.dropLast_cons_cons, hraised] at hquiet
        cases hquiet
    | none =>
      have hcount := (HonestSource.of_reads (H := fun _ => False) hreads).1
      -- calls that go on from here, however idle calls are counted
      have hgoes : ∀ idle', idle' + pauses s₁ < maxEmptyReads →
          (∀ es, arisenAfter idle (⟨n, g⟩ :: es) = arisenAfter idle' es) →
          (arisenAfter idle (⟨n, g⟩ :: ds) = [] ∧ ∀ d ∈ ⟨n, g⟩ :: ds, d.reading.fault = none) ∨
            ∃ es s' d e, ⟨n, g⟩ :: ds = es ++ [d] ∧ Calls s es s' ∧
              (∀ d ∈ es, d.reading.fault = none) ∧
              ByteSource.Reads s' d.offered d.reading s₂ ∧ d.reading.fault = some e ∧
              arisenAfter idle (⟨n, g⟩ :: ds) = [e] := by
        intro idle' hidle' hsame
        have hquiet' : arisenAfter idle' ds.dropLast = [] := by
          cases ds with
          | nil => rfl
          | cons d ds => rwa [List.dropLast_cons_cons, hsame] at hquiet
        rw [hsame ds]
        rcases ih hidle' hquiet' with
          ⟨hnothing, hnone⟩ | ⟨es, s', d, e, rfl, hes, hnone, hlast, he, hraised⟩
        · exact .inl ⟨hnothing, List.forall_mem_cons.mpr ⟨hfault, hnone⟩⟩
        · exact .inr ⟨⟨n, g⟩ :: es, s', d, e, rfl, .cons hreads hes,
            List.forall_mem_cons.mpr ⟨hfault, hnone⟩, hlast, he, hraised⟩
      by_cases hbrought : 0 < g.count ∨ n = 0
      · refine hgoes 0 (by rw [Nat.zero_add]; exact pauses_lt s₁) fun es => ?_
        rw [Reader.arisenAfter_brought idle es (.inr hbrought),
          show (⟨n, g⟩ : Draw).reading.fault = none from hfault]
        rfl
      · rw [not_or] at hbrought
        have hn : 0 < n := Nat.pos_of_ne_zero hbrought.2
        have hdata : g.data = [] := List.eq_nil_of_length_eq_zero (by omega)
        have hpauses := pauses_of_reads hreads hfault hn hdata
        refine hgoes (idle + 1) (by omega) fun es => ?_
        rw [eq_idle hcount hbrought.1 (by rw [hfault]; simp), Reader.arisenAfter_idle idle es hn,
          if_neg (by omega)]

/-- By induction on the calls: without an error they hand out bytes from the front of those
ahead. -/
theorem goes_of_calls (h : Calls s ds s') (hnone : ∀ d ∈ ds, d.reading.fault = none) :
    ahead s = drawn ds ++ ahead s' ∧ stop s' = stop s := by
  induction h with
  | nil => exact ⟨rfl, rfl⟩
  | cons hreads _ ih =>
    obtain ⟨hfault, hnone⟩ := List.forall_mem_cons.mp hnone
    obtain ⟨hahead, hstop⟩ := goes_of_reads hreads hfault
    obtain ⟨hrest, hstop'⟩ := ih hnone
    exact ⟨by rw [drawn_cons, hahead, hrest, List.append_assoc], hstop'.trans hstop⟩

/-- Either nothing arises, and the calls hand out bytes from the front of those ahead, or
the last call raises the error, and the calls hand out all of them. -/
theorem calls_lead (h : Calls s ds s') {idle : Nat} (hidle : idle + pauses s < maxEmptyReads)
    (hquiet : arisenAfter idle ds.dropLast = []) :
    (arisenAfter idle ds = [] ∧ ahead s = drawn ds ++ ahead s' ∧ stop s' = stop s) ∨
      (arisenAfter idle ds = [stop s] ∧ ahead s = drawn ds) := by
  rcases calls_report h hidle hquiet with
    ⟨hnothing, hnone⟩ | ⟨es, s₁, d, e, rfl, hes, hnone, hlast, he, hraised⟩
  · exact .inl ⟨hnothing, goes_of_calls h hnone⟩
  · obtain ⟨hahead, hstop⟩ := goes_of_calls hes hnone
    obtain ⟨hdata, rfl⟩ := stops_of_reads hlast he
    refine .inr ⟨by rw [hraised, hstop], ?_⟩
    rw [hahead, hdata, drawn_append, drawn_cons, drawn_nil, List.append_nil]

/-- No call reports a full buffer. -/
theorem neverFull (s : τ) : NeverFull s := by
  intro ds s' h
  induction h with
  | nil => simp
  | cons hreads _ ih =>
    refine List.forall_mem_cons.mpr ⟨fun hfull => ?_, ih⟩
    exact stop_ne_full _ (stops_of_reads hreads hfull).2

end ErringSource

/-- By induction on the calls: whatever an ending source reports, its bytes come in
order. -/
theorem EndingSource.ahead_of_calls {τ : Type} [ByteSource τ] [EndingSource τ] {s s' : τ}
    {ds : List Draw} (h : Calls s ds s') :
    ErringSource.ahead s = drawn ds ++ ErringSource.ahead s' := by
  induction h with
  | nil => rfl
  | @cons s s₁ s₂ n g ds hreads _ ih =>
    rw [drawn_cons, List.append_assoc, ← ih]
    cases hfault : g.fault with
    | none => exact (ErringSource.goes_of_reads hreads hfault).1
    | some e =>
      obtain ⟨hahead, rfl⟩ := ErringSource.stops_of_reads hreads hfault
      rw [EndingSource.stop_eq] at hfault
      rw [EndingSource.ends_of_reads hreads hfault, List.append_nil]
      exact hahead

open ErringSource (ahead)

namespace Reader

variable {τ : Type} [ByteSource τ] [ErringSource τ] {r r' r₁ : Reader τ} {ds : List Draw}
  {delim : UInt8} {p : Passage}

/-! ## The stretch -/

/-- The unread bytes and, unless an error is latched, those that the source has before
its next one. -/
def stretch (r : Reader τ) : Bytes :=
  r.window.unread ++ if r.fault = none then ahead r.source else []

/-- The error behind the stretch: the latched one, or the next of the source. -/
def stop (r : Reader τ) : Error := r.fault.getD (ErringSource.stop r.source)

theorem stretch_of_latched {e : Error} (he : r.fault = some e) : r.stretch = r.window.unread := by
  rw [stretch, he, if_neg (by rintro ⟨⟩), List.append_nil]

theorem stretch_of_fault_eq_none (h : r.fault = none) :
    r.stretch = r.window.unread ++ ahead r.source := by
  rw [stretch, if_pos h]

theorem stop_of_latched {e : Error} (he : r.fault = some e) : r.stop = e := by
  rw [stop, he]
  rfl

theorem stop_of_fault_eq_none (h : r.fault = none) : r.stop = ErringSource.stop r.source := by
  rw [stop, h]
  rfl

/-- The error behind the stretch is a full buffer only if that is latched. -/
theorem stop_ne_full_iff : r.stop ≠ .bufferFull ↔ r.fault ≠ some .bufferFull := by
  cases he : r.fault with
  | none =>
    rw [stop_of_fault_eq_none he]
    exact ⟨fun _ => by rintro ⟨⟩, fun _ => ErringSource.stop_ne_full _⟩
  | some e =>
    rw [stop_of_latched he, Ne, Ne, Option.some.injEq]

@[simp] theorem stretch_noteDelivered (b : Bytes) : (r.noteDelivered b).stretch = r.stretch := rfl

/-- Bytes that are handed out are those at the front of the stretch. -/
theorem stretch_delivering (r : Reader τ) (n : Nat) :
    r.stretch = r.window.unread.take n ++ (r.delivering n).stretch := by
  show r.window.unread ++ _ = r.window.unread.take n ++ (r.window.unread.drop n ++ _)
  rw [← List.append_assoc, List.take_append_drop]
  rfl

theorem Settles.stretch_eq (hs : r.Settles r') : r'.stretch = r.stretch := by
  rw [stretch, stretch, hs.unread_eq, hs.fault_eq, hs.source_eq]

theorem Settles.stop_eq (hs : r.Settles r') : r'.stop = r.stop := by
  rw [stop, stop, hs.fault_eq, hs.source_eq]

/-! ## Filling the buffer -/

/-- What filling the buffer latches, and where it leaves the source. -/
theorem Pulled.leads (hp : r.Pulled ds r₁) (hds : ds ≠ []) :
    (r₁.fault = none ∧ ahead r.source = drawn ds ++ ahead r₁.source ∧
        ErringSource.stop r₁.source = ErringSource.stop r.source) ∨
      (r₁.fault = some (ErringSource.stop r.source) ∧ ahead r.source = drawn ds) := by
  have hlatched := hp.arisen_eq hds
  have hidle : 0 + ErringSource.pauses r.source < maxEmptyReads := by
    rw [Nat.zero_add]
    exact ErringSource.pauses_lt _
  rcases ErringSource.calls_lead hp.calls hidle hp.quiet with ⟨hnothing, hrest⟩ | ⟨hraised, hall⟩
  · rw [arisen, hnothing, Option.toList_eq_nil_iff] at hlatched
    exact .inl ⟨hlatched, hrest⟩
  · rw [arisen, hraised, Option.toList_eq_singleton_iff] at hlatched
    exact .inr ⟨hlatched, hall⟩

/-- **Filling the buffer keeps the stretch.** -/
theorem Pulled.stretch_eq (hp : r.Pulled ds r₁) : r₁.stretch = r.stretch := by
  by_cases hds : ds = []
  · subst hds
    rw [stretch, stretch, hp.fault_eq, hp.calls.nil_eq, hp.unread, drawn_nil, List.append_nil]
  · rw [stretch_of_fault_eq_none (hp.fault_of_calls hds)]
    rcases hp.leads hds with ⟨hnone, hahead, -⟩ | ⟨hstop, hahead⟩
    · rw [stretch_of_fault_eq_none hnone, hp.unread, hahead, List.append_assoc]
    · rw [stretch_of_latched hstop, hp.unread, hahead]

theorem Pulled.stop_eq (hp : r.Pulled ds r₁) : r₁.stop = r.stop := by
  by_cases hds : ds = []
  · subst hds
    rw [stop, stop, hp.fault_eq, hp.calls.nil_eq]
  · rw [stop_of_fault_eq_none (hp.fault_of_calls hds)]
    rcases hp.leads hds with ⟨hnone, -, hstop⟩ | ⟨hstop, -⟩
    · rw [stop_of_fault_eq_none hnone, hstop]
    · rw [stop_of_latched hstop]

/-! ## One scan -/

/-- A byte that is found splits the bytes around it. -/
theorem exists_append_of_idxOf? {b : Bytes} {i : Nat} (h : b.idxOf? delim = some i) :
    ∃ before, b.take (i + 1) = before ++ [delim] ∧ b = before ++ delim :: b.drop (i + 1) ∧
      delim ∉ before := by
  obtain ⟨hlt, hat, hfirst⟩ := List.idxOf?_eq_some_iff.mp h
  refine ⟨b.take i, ?_, ?_, fun hmem => ?_⟩
  · rw [List.take_succ_eq_append_getElem hlt, hat]
  · rw [← hat, List.getElem_cons_drop, List.take_append_drop]
  · obtain ⟨j, hj, hfound⟩ := List.mem_take_iff_getElem.mp hmem
    exact hfirst j (by omega) hfound

/-- What a scan takes from the stretch: the bytes up to the first delimiter, as many as the
buffer holds, or all of them. -/
inductive Splits (delim : UInt8) (r : Reader τ) (p : Passage) (r' : Reader τ) : Prop
  | found {before : Bytes} (hp : p = ⟨before ++ [delim], none⟩) (hno : delim ∉ before)
      (hstretch : r.stretch = before ++ delim :: r'.stretch) (hstop : r'.stop = r.stop)
      (hroom : before.length < r.size)
  | full (hfault : p.fault = some .bufferFull) (hlatched : r.fault = none)
      (hsize : p.bytes.length = r.size) (hno : delim ∉ p.bytes)
      (hstretch : r.stretch = p.bytes ++ r'.stretch) (hstop : r'.stop = r.stop)
      (hpast : p.bytes.reverse <+: r'.window.past)
  | ended (hp : p = ⟨r.stretch, some r.stop⟩) (hno : delim ∉ r.stretch) (hfault : r'.fault = none)
      (hroom : r.fault = none → r.stretch.length < r.size)

/-- **A scan splits the stretch**, wherever the pieces of the source end. -/
theorem Scans.splits (hs : r.Scans delim ds p r') : r.Splits delim p r' := by
  cases hs with
  | @found r₁ i hp hnew hi =>
    obtain ⟨before, htake, hunread, hno⟩ := exists_append_of_idxOf? hi
    have hfits := hp.wf.buffered_le
    rw [buffered, hunread, List.length_append, List.length_cons, hp.size] at hfits
    rw [htake]
    refine .found rfl hno ?_ hp.stop_eq (by omega)
    rw [← hp.stretch_eq]
    show r₁.window.unread ++ _ = before ++ delim :: (r₁.window.unread.drop _ ++ _)
    rw [← List.cons_append, ← List.append_assoc, ← hunread]
  | @full r₁ hp hcalls hno hfull =>
    have hfits := hp.wf.buffered_le
    rw [hp.size] at hfull hfits
    refine .full rfl (hp.fault_of_calls hcalls) (Nat.le_antisymm hfits hfull) hno ?_ hp.stop_eq
      (List.prefix_append ..)
    rw [← hp.stretch_eq, stretch]
    rfl
  | @ended r₁ r₂ e hp hno he hs hroom =>
    have hstretch : r₁.window.unread = r.stretch := by
      rw [← hp.stretch_eq, stretch_of_latched he]
    have hstop : e = r.stop := by rw [← hp.stop_eq, stop_of_latched he]
    refine .ended ?_ ?_ rfl fun hnone => ?_
    · rw [hstretch, hstop]
    · rwa [← hstretch]
    · have hds : ds ≠ [] := by
        rintro rfl
        rw [hp.fault_eq, hnone] at he
        cases he
      have hlt := hroom hds
      rwa [buffered, hstretch, hp.size] at hlt

/-- A piece of the stretch has filled the buffer. -/
structure Fills (delim : UInt8) (r : Reader τ) (b : Bytes) (r' : Reader τ) : Prop where
  latched : r.fault = none
  length_eq : b.length = r.size
  not_mem : delim ∉ b
  stretch_eq : r.stretch = b ++ r'.stretch
  stop_eq : r'.stop = r.stop
  past : b.reverse <+: r'.window.past

/-- A scan that reports a full buffer has filled it. -/
theorem Scans.fills (hs : r.Scans delim ds p r') (h : r.stop ≠ .bufferFull)
    (hfull : p.fault = some .bufferFull) : r.Fills delim p.bytes r' := by
  cases hs.splits with
  | found hp =>
    rw [hp] at hfull
    cases hfull
  | full _ hlatched hsize hno hstretch hstop hpast =>
    exact ⟨hlatched, hsize, hno, hstretch, hstop, hpast⟩
  | ended hp =>
    rw [hp] at hfull
    exact absurd (Option.some.inj hfull) h

end Reader

end BufferedStream
