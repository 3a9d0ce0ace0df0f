import BufferedStream.Proofs.Reader.Operation
import BufferedStream.Proofs.Stack.Layer

/-!
# Reading to the end

A source of finitely many bytes may pause: now and then it hands out nothing, but only
so many times in a row (`PausingSource`).  Who reads from a reader over such a source
until the end is reported gets just the bytes that the source has left, whatever the
rooms offered.

* `Reader.Ahead` — a reader whose stream is in order, by the bytes that are still to
  come.
* `Reader.read_ahead` — one reading takes its bytes from the front of these, and gets
  nearer to the end.
* `Reader.readings_to_end` — so some number of readings gets there.
-/

namespace BufferedStream

/-- An honest source of finitely many bytes that may pause: it hands them out in order,
and reports the end, and nothing else, when none remains. -/
class PausingSource (τ : Type) [ByteSource τ] extends HonestSource (fun _ => False) τ where
  /-- The bytes that remain to be handed out. -/
  remaining : τ → Bytes
  /-- How often the source may hand out nothing before it brings bytes or the end. -/
  pauses : τ → Nat
  remaining_of_reads {s s' : τ} {n : Nat} {g : Reading} :
    ByteSource.Reads s n g s' → remaining s = g.data ++ remaining s'
  fault_of_reads {s s' : τ} {n : Nat} {g : Reading} :
    ByteSource.Reads s n g s' → g.fault = none ∨ (g.fault = some .eof ∧ remaining s' = [])
  /-- Offered room, the source brings bytes, reports the end, or pauses once more. -/
  brings_of_reads {s s' : τ} {n : Nat} {g : Reading} :
    ByteSource.Reads s n g s' → 0 < n → g.data = [] → g.fault = some .eof ∨ pauses s' < pauses s

/-- A finite source never pauses. -/
instance {τ : Type} [ByteSource τ] [FiniteSource τ] : PausingSource τ where
  remaining := FiniteSource.remaining
  pauses _ := 0
  remaining_of_reads := FiniteSource.remaining_of_reads
  fault_of_reads := FiniteSource.fault_of_reads
  brings_of_reads h hn hdata := .inl (FiniteSource.brings_of_reads h hn hdata)

open PausingSource (remaining pauses)

namespace Reader

variable {τ : Type} [ByteSource τ] [PausingSource τ] {r r' : Reader τ} {b : Bytes}

/-- The stream of the reader is in order: `b` is still to come, and only the end may be
latched, once nothing more comes from the source. -/
structure Ahead (r : Reader τ) (b : Bytes) : Prop where
  wf : r.WF
  coming : b = r.window.unread ++ remaining r.source
  latched : r.fault = none ∨ (r.fault = some .eof ∧ remaining r.source = [])

/-- A reading takes its bytes from the front of those to come.  Without an error it
brought bytes or the source has one pause less; the only error is the end, when
nothing more is to come. -/
structure Advances (r : Reader τ) (b : Bytes) (g : Reading) (r' : Reader τ) (b' : Bytes) :
    Prop where
  ahead : r'.Ahead b'
  split : b = g.data ++ b'
  count : g.count = g.data.length
  progress : (g.fault = none ∧ (g.data ≠ [] ∨ pauses r'.source < pauses r.source)) ∨
    (g.fault = some .eof ∧ b' = [])

/-- What a single call brings, whoever makes it. -/
theorem progress_of_reads {s s' : τ} {n : Nat} {g : Reading} (hreads : ByteSource.Reads s n g s')
    (hn : 0 < n) :
    (g.fault = none ∧ (g.data ≠ [] ∨ pauses s' < pauses s)) ∨
      (g.fault = some .eof ∧ remaining s' = []) := by
  rcases PausingSource.fault_of_reads hreads with hnone | hend
  · refine .inl ⟨hnone, ?_⟩
    by_cases hdata : g.data = []
    · refine .inr ((PausingSource.brings_of_reads hreads hn hdata).resolve_left ?_)
      rw [hnone]
      rintro ⟨⟩
    · exact .inl hdata
  · exact .inr hend

/-- What is still to come stays so when a call fills the buffer. -/
theorem Ahead.pulled {ds : List Draw} {r₁ : Reader τ} (h : r.Ahead b) (hp : r.Pulled ds r₁)
    (hone : ds.length ≤ 1) : r₁.Ahead b := by
  match ds, hone with
  | [], _ =>
    have hsource := hp.calls.nil_eq
    refine ⟨hp.wf, ?_, ?_⟩
    · rw [h.coming, hp.unread, hsource, drawn_nil, List.append_nil]
    · rw [hp.fault_eq, hsource]
      exact h.latched
  | [d], _ =>
    have hreads := hp.calls.reads
    refine ⟨hp.wf, ?_, ?_⟩
    · rw [h.coming, hp.unread, PausingSource.remaining_of_reads hreads, drawn_cons, drawn_nil,
        List.append_nil, List.append_assoc]
    · rw [hp.fault_single]
      exact PausingSource.fault_of_reads hreads

/-- The block has no part in what is to come. -/
theorem Ahead.settles (h : r.Ahead b) (hs : r.Settles r') : r'.Ahead b :=
  ⟨hs.wf h.wf, by rw [hs.unread_eq, hs.source_eq]; exact h.coming,
    by rw [hs.fault_eq, hs.source_eq]; exact h.latched⟩

/-- **A reading gets nearer to the end.** -/
theorem ReadsInto.advances {room : Room} {ds : List Draw} {g : Reading} (h : r.Ahead b)
    (hr : r.ReadsInto room ds g r') (hroom : 0 < room.size) : ∃ b', r.Advances b g r' b' := by
  have hwf := hr.wf h.wf
  cases hr with
  | nothing h0 => omega
  | @through g s _ hunread hfault _ hreads hcount =>
    have hcoming : b = g.data ++ remaining s := by
      rw [h.coming, hunread]
      exact PausingSource.remaining_of_reads hreads
    refine ⟨remaining s, ⟨hwf, ?_, .inl ?_⟩, hcoming, hcount, ?_⟩
    · split <;> rw [hunread] <;> rfl
    · split <;> exact hfault
    · rw [apply_ite Reader.source, ite_self]
      exact progress_of_reads hreads hroom
  | @delivered _ r₁ _ _ hp _ hne hs hone =>
    have h₁ := h.pulled hp hone
    refine ⟨r₁.window.unread.drop room.size ++ remaining r₁.source, ?_, ?_, rfl,
      .inl ⟨rfl, .inl ?_⟩⟩
    · exact Ahead.settles ⟨h₁.wf.delivering _, rfl, h₁.latched⟩ hs
    · show b = r₁.window.unread.take room.size ++ _
      rw [h₁.coming, ← List.append_assoc, List.take_append_drop]
    · show r₁.window.unread.take room.size ≠ []
      rw [Ne, List.take_eq_nil_iff]
      rintro (h0 | hnil)
      · omega
      · exact hne hnil
  | @dry _ r₁ r₂ _ hp hempty hunread hs hends hone =>
    have h₁ := h.pulled hp hone
    have h₂ := h₁.settles hs
    refine ⟨b, ⟨hwf, h₂.coming, .inl rfl⟩, rfl, rfl, ?_⟩
    rcases h₁.latched with hnone | ⟨heof, hend⟩
    · match ds, hone with
      | [], _ =>
        have hsome := hends rfl
        rw [hnone] at hsome
        cases hsome
      | [d], _ =>
        have hreads := hp.calls.reads
        have hdata := hp.unread
        rw [hempty (List.cons_ne_nil _ _), hunread, drawn_cons, drawn_nil, List.append_nil,
          List.nil_append] at hdata
        have hpos : 0 < d.offered :=
          hp.roomy (fun hds => by
            rw [buffered, hempty hds]
            exact h.wf.size_pos) d List.mem_cons_self
        refine .inl ⟨hnone, .inr ?_⟩
        show pauses r₂.source < _
        rw [hs.source_eq]
        refine (PausingSource.brings_of_reads hreads hpos hdata.symm).resolve_left ?_
        rw [← hp.fault_single, hnone]
        rintro ⟨⟩
    · refine .inr ⟨heof, ?_⟩
      rw [h₁.coming, hunread, hend]
      rfl

/-! ## Reading on and on -/

/-- Readings to the end: they deliver just the bytes `b`, and only the last reports an
error, which is the end. -/
def ToEnd (b : Bytes) (gs : List Reading) : Prop :=
  gs.flatMap (fun g => g.data) = b ∧ (∀ g ∈ gs, g.count = g.data.length) ∧
    ∃ before last, gs = before ++ [last] ∧ (∀ g ∈ before, g.fault = none) ∧ last.fault = some .eof

theorem ToEnd.last {g : Reading} (hcount : g.count = g.data.length) (heof : g.fault = some .eof) :
    ToEnd g.data [g] :=
  ⟨List.append_nil _, List.forall_mem_singleton.mpr hcount, [], g, rfl, by simp, heof⟩

theorem ToEnd.cons {g : Reading} {gs : List Reading} (h : ToEnd b gs)
    (hcount : g.count = g.data.length) (hnone : g.fault = none) :
    ToEnd (g.data ++ b) (g :: gs) := by
  obtain ⟨rfl, hcounts, before, last, rfl, hbefore, hlast⟩ := h
  exact ⟨rfl, List.forall_mem_cons.mpr ⟨hcount, hcounts⟩, g :: before, last, rfl,
    List.forall_mem_cons.mpr ⟨hnone, hbefore⟩, hlast⟩

/-- The readings into some rooms, one after another. -/
def readings (rooms : Nat → Room) (n : Nat) : List Op := (List.range n).map fun i => .read (rooms i)

theorem readings_succ (rooms : Nat → Room) (n : Nat) :
    readings rooms (n + 1) = .read (rooms 0) :: readings (fun i => rooms (i + 1)) n := by
  simp [readings, List.range_succ_eq_map, Function.comp_def]

/-- **Who reads on gets to the end.**  By induction on the bytes to come, and for as many
bytes on the pauses: each reading takes bytes, or passes a pause. -/
theorem readings_to_end {r : Reader τ} {b : Bytes} (h : r.Ahead b) (rooms : Nat → Room)
    (hrooms : ∀ i, 0 < (rooms i).size) (sh : Shared) :
    ∃ n, Act.Returns (Act.performAll perform (readings rooms n) r) sh fun entries _ =>
      ∃ gs, entries.map Entry.outcome = gs.map .reading ∧ ToEnd b gs := by
  have hreads : Act.Returns (r.read (rooms 0)) sh fun x _ =>
      ∃ ds, r.ReadsInto (rooms 0) ds x.1 x.2 := read_meets h.wf (rooms 0)
  obtain ⟨⟨g, r'⟩, sh', hread, ds, hr⟩ := hreads.exists_ok
  dsimp only at hr
  obtain ⟨b', ha⟩ := hr.advances h (hrooms 0)
  have hfirst : perform (.read (rooms 0)) r sh = .ok (.reading g, r') sh' := by
    simp only [perform, bind, EStateM.bind, hread]
    rfl
  rcases ha.progress with ⟨hnone, hmore⟩ | ⟨heof, hend⟩
  · have hdecreases : b'.length < b.length ∨
        (b'.length = b.length ∧ pauses r'.source < pauses r.source) := by
      have hlength := congrArg List.length ha.split
      rw [List.length_append] at hlength
      by_cases hdata : g.data = []
      · rw [hdata, List.length_nil] at hlength
        exact .inr ⟨by omega, hmore.resolve_left (fun hne => hne hdata)⟩
      · have := List.length_pos_iff.mpr hdata
        exact .inl (by omega)
    obtain ⟨n, hrest⟩ := readings_to_end ha.ahead (fun i => rooms (i + 1))
      (fun i => hrooms (i + 1)) sh'
    refine ⟨n + 1, ?_⟩
    rw [readings_succ, Act.performAll]
    refine Act.meets_bind.mpr (Act.meets_of_eq hfirst (Act.meets_bind.mpr (hrest.imp ?_)))
    rintro entries sh'' ⟨gs, houtcomes, hgs⟩
    refine ⟨g :: gs, congrArg (Outcome.reading g :: ·) houtcomes, ?_⟩
    rw [ha.split]
    exact hgs.cons ha.count hnone
  · refine ⟨1, ?_⟩
    rw [readings_succ, Act.performAll]
    refine Act.meets_bind.mpr (Act.meets_of_eq hfirst ?_)
    refine ⟨[g], rfl, ?_⟩
    rw [ha.split, hend, List.append_nil]
    exact .last ha.count heof
termination_by (b.length, pauses r.source)
decreasing_by
  rcases hdecreases with hlt | ⟨heq, hlt⟩
  · exact Prod.Lex.left _ _ hlt
  · rw [heq]
    exact Prod.Lex.right _ hlt

end Reader

end BufferedStream
