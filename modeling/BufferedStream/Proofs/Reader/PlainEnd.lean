import BufferedStream.Duplex
import BufferedStream.Proofs.Reader.Attested

/-!
# When nothing comes of a plain read

A plain input tells the end of the stream by handing out nothing.  A reader does so in
three cases, in each of which nothing is left unread: the end was latched, or the one call
on the source reports it, or the one call was idle.  In the third the end has not come: the
source handed out nothing and reported nothing.

* `Reader.ComesToNothing` — the three cases.
* `Reader.plainRead_ends` — a reader, a duplex over it and a source made of it again:
  each tells the end in these cases only, and unless the last call on the source was idle
  the source has reported the end before.
-/

namespace BufferedStream

open History (draws)

/-- The source has reported the end of the stream. -/
def EndReported {σ : Type} [ByteSource σ] [History σ] (s : σ) : Prop :=
  ∃ d ∈ draws s, d.reading.fault = some .eof

/-- A call that brought no byte but the end of the stream. -/
def Draw.ending (offered : Nat) : Draw := ⟨offered, .ofBytes [] (some .eof)⟩

/-- Nothing was handed out, and no failure either. -/
def HandsOutNothing : Except IoError Grant → Prop
  | .ok g => g.count = 0
  | .error _ => False

namespace Reader

variable {σ κ : Type} [ByteSource σ] {r r' : Reader σ} {ds : List Draw} {room : Room}

/-- The ways for nothing to come of a plain read. -/
inductive ComesToNothing (r : Reader σ) : List Draw → Prop
  /-- The end of the stream was latched. -/
  | latched (hunread : r.window.unread = []) (hfault : r.fault = some .eof) : ComesToNothing r []
  | reported (n : Nat) (hunread : r.window.unread = []) (hfault : r.fault = none) :
      ComesToNothing r [.ending n]
  /-- The source did not report the end. -/
  | idle (n : Nat) (hunread : r.window.unread = []) (hfault : r.fault = none) :
      ComesToNothing r [.idle n]

/-! ## Readings without bytes -/

/-- What is behind a reading without bytes: an error latched before, or the one call that
was made, which brought nothing either. -/
structure ReadsNothing (r : Reader σ) (ds : List Draw) (g : Reading) (r' : Reader σ) : Prop where
  unread : r.window.unread = []
  unread_after : r'.window.unread = []
  call : (ds = [] ∧ g.fault.isSome = true ∧ g.fault = r.fault) ∨
    (r.fault = none ∧ ∃ n, ds = [⟨n, .ofBytes [] g.fault⟩])

theorem eq_ofBytes {g : Reading} (hcount : g.count = g.data.length) (h0 : g.data = []) :
    g = .ofBytes [] g.fault := by
  obtain ⟨⟨data, count⟩, fault⟩ := g
  dsimp only at hcount h0
  subst h0
  simp only [List.length_nil] at hcount
  subst hcount
  rfl

variable {H : Halt → Prop} [HonestSource H σ]

include H in
theorem ReadsInto.readsNothing {g : Reading} (hr : r.ReadsInto room ds g r')
    (hroom : 0 < room.size) (h0 : g.count = 0) : r.ReadsNothing ds g r' := by
  cases hr with
  | nothing h => omega
  | @through g s _ hunread hfault _ _ hcount =>
    have hdata : g.data = [] := List.eq_nil_of_length_eq_zero (hcount ▸ h0)
    refine ⟨hunread, ?_, .inr ⟨hfault, room.size, ?_⟩⟩
    · split <;> exact hunread
    · rw [← eq_ofBytes hcount hdata]
  | @delivered _ r₁ _ _ _ _ hne =>
    have hpos := List.length_pos_iff.mpr hne
    have hlen : (r₁.window.unread.take room.size).length = 0 := h0
    rw [List.length_take] at hlen
    omega
  | @dry _ r₁ _ _ hp _ hunread hs hends hone =>
    have hsplit := hp.unread
    rw [hunread] at hsplit
    obtain ⟨hbefore, hdrawn⟩ := List.append_eq_nil_iff.mp hsplit.symm
    refine ⟨hbefore, hs.unread_eq.trans hunread, ?_⟩
    match ds, hone with
    | [], _ => exact .inl ⟨rfl, hends rfl, hp.fault_eq⟩
    | [d], _ =>
      have hcount := (HonestSource.of_reads (H := H) hp.calls.reads).1
      rw [drawn_cons, drawn_nil, List.append_nil] at hdrawn
      refine .inr ⟨hp.fault_of_calls (List.cons_ne_nil _ _), d.offered, ?_⟩
      show [d] = [⟨d.offered, .ofBytes [] r₁.fault⟩]
      rw [hp.fault_single, ← eq_ofBytes hcount hdrawn]

omit [ByteSource σ] H [HonestSource H σ] in
/-- Nothing comes of a plain read just if its reading is without bytes and reports nothing
but the end. -/
theorem ReadsNothing.comesToNothing_iff {g : Reading} (h : r.ReadsNothing ds g r') :
    r.ComesToNothing ds ↔ g.fault = none ∨ g.fault = some .eof := by
  constructor
  · intro hnothing
    rcases h.call with ⟨rfl, -, hfault⟩ | ⟨-, n, rfl⟩
    · cases hnothing with
      | latched _ heof => exact .inr (hfault.trans heof)
    · generalize g.fault = fault at hnothing ⊢
      cases hnothing with
      | reported => exact .inr rfl
      | idle => exact .inl rfl
  · intro hends
    rcases h.call with ⟨rfl, hsome, hfault⟩ | ⟨hnone, n, rfl⟩
    · rcases hends with hnone | heof
      · rw [hnone] at hsome
        cases hsome
      · exact .latched h.unread (hfault ▸ heof)
    · rcases hends with hend | hend
      · rw [hend]
        exact .idle n h.unread hnone
      · rw [hend]
        exact .reported n h.unread hnone

/-! ## One plain read -/

omit [ByteSource σ] H [HonestSource H σ] in
/-- Where bytes come, something was unread or drawn. -/
theorem ComesToNothing.dry (h : r.ComesToNothing ds) : r.window.unread ++ drawn ds = [] := by
  cases h with
  | latched hunread => simp [hunread]
  | reported n hunread => simp [hunread, Draw.ending, Reading.ofBytes]
  | idle n hunread => simp [hunread]

omit H [HonestSource H σ] in
theorem ReadsInto.brings {g : Reading} (hr : r.ReadsInto room ds g r') (hcount : 0 < g.count) :
    r.window.unread ++ drawn ds ≠ [] := by
  cases hr with
  | nothing => exact absurd hcount (Nat.lt_irrefl 0)
  | through _ hunread _ _ _ hdata =>
    rw [hunread, List.nil_append, drawn_cons, drawn_nil, List.append_nil]
    exact List.length_pos_iff.mp (hdata ▸ hcount)
  | delivered _ hp _ hne => exact hp.unread ▸ hne
  | dry => exact absurd hcount (Nat.lt_irrefl 0)

include H in
theorem ReadsPlain.handsOutNothing_iff {g : Except IoError Grant} (hg : r.ReadsPlain room ds g r')
    (hroom : 0 < room.size) : HandsOutNothing g ↔ r.ComesToNothing ds := by
  cases hg with
  | delivered hr hcount =>
    constructor
    · intro h0
      exact absurd h0 (Nat.ne_of_gt hcount)
    · intro h
      exact absurd h.dry (hr.brings hcount)
  | ended hr h0 hfault =>
    have h := hr.readsNothing (H := H) hroom h0
    exact ⟨fun _ => h.comesToNothing_iff.mpr hfault, fun _ => rfl⟩
  | failed shared hr h0 hfault he =>
    have h := hr.readsNothing (H := H) hroom h0
    rw [h.comesToNothing_iff, hfault]
    constructor
    · intro hnothing
      exact hnothing.elim
    · rintro (hnone | heof)
      · cases hnone
      · exact absurd (Option.some.inj heof) he

include H in
theorem ReadsPlain.unread_of_nothing {g : Except IoError Grant} (hg : r.ReadsPlain room ds g r')
    (hroom : 0 < room.size) (h : HandsOutNothing g) : r'.window.unread = [] := by
  cases hg with
  | delivered hr hcount => exact absurd h (Nat.ne_of_gt hcount)
  | ended hr h0 => exact (hr.readsNothing (H := H) hroom h0).unread_after
  | failed => exact h.elim

omit H [HonestSource H σ] in
/-- A call is made only where nothing is unread and nothing is latched, and there is one at
the most. -/
theorem ReadsInto.call_when_empty {g : Reading} (hr : r.ReadsInto room ds g r') :
    ds = [] ∨ ∃ d, ds = [d] ∧ r.window.unread = [] ∧ r.fault = none := by
  have hone : ∀ {ds : List Draw} {r₁ : Reader σ}, ds.length ≤ 1 → r.Pulled ds r₁ →
      (ds ≠ [] → r.window.unread = []) →
      ds = [] ∨ ∃ d, ds = [d] ∧ r.window.unread = [] ∧ r.fault = none := by
    intro ds r₁ hlen hp hunread
    match ds, hlen with
    | [], _ => exact .inl rfl
    | [d], _ =>
      have hne := List.cons_ne_nil d []
      exact .inr ⟨d, rfl, hunread hne, hp.fault_of_calls hne⟩
  cases hr with
  | nothing => exact .inl rfl
  | through _ hunread hfault => exact .inr ⟨_, rfl, hunread, hfault⟩
  | delivered _ hp hunread _ _ hlen => exact hone hlen hp hunread
  | dry _ hp hunread _ _ _ hlen => exact hone hlen hp hunread

omit H [HonestSource H σ] in
theorem ReadsPlain.call_when_empty {g : Except IoError Grant} (hg : r.ReadsPlain room ds g r') :
    ds = [] ∨ ∃ d, ds = [d] ∧ r.window.unread = [] ∧ r.fault = none := by
  cases hg with
  | delivered hr => exact hr.call_when_empty
  | ended hr => exact hr.call_when_empty
  | failed _ hr => exact hr.call_when_empty

/-- Nothing is left unread after the calls `ds`, and unless the last of them was idle the
source has reported the end. -/
structure Finished [History σ] (r : Reader σ) (ds : List Draw) : Prop where
  unread : r.window.unread = []
  reported : EndReported r.source ∨ ∃ n, ds.getLast? = some (.idle n)

include H in
theorem ReadsPlain.finished [History σ] {g : Except IoError Grant} (hg : r.ReadsPlain room ds g r')
    (hattested : r.Attested) (hroom : 0 < room.size) (h : HandsOutNothing g) : r'.Finished ds := by
  refine ⟨hg.unread_of_nothing (H := H) hroom h, ?_⟩
  have hdraws := draws_of_calls hg.calls
  cases (hg.handsOutNothing_iff (H := H) hroom).mp h with
  | latched _ heof =>
    rcases hattested _ heof with hown | ⟨d, hd, hfault⟩
    · cases hown
    · exact .inl ⟨d, by rw [hdraws]; exact List.mem_append_left _ hd, hfault⟩
  | reported n =>
    refine .inl ⟨.ending n, ?_, rfl⟩
    rw [hdraws]
    exact List.mem_append_right _ (List.mem_singleton_self _)
  | idle n => exact .inr ⟨n, rfl⟩

/-! ## A source made of a reader -/

/-- A plain read is made again after every interruption. -/
inductive Repeats (room : Room) :
    Reader σ → List Draw → Except IoError Grant → Reader σ → Prop
  | once {r r' : Reader σ} {ds : List Draw} {g : Except IoError Grant}
      (hg : r.ReadsPlain room ds g r') : Repeats room r ds g r'
  | again {r r₁ r' : Reader σ} {ds es : List Draw} {cause : IoError} {g : Except IoError Grant}
      (hg : r.ReadsPlain room ds (.error cause) r₁) (hrest : Repeats room r₁ es g r') :
      Repeats room r (ds ++ es) g r'

omit H [HonestSource H σ] in
theorem Repeats.calls {g : Except IoError Grant} (h : r.Repeats room ds g r') :
    Calls r.source ds r'.source := by
  induction h with
  | once hg => exact hg.calls
  | again hg _ ih => exact hg.calls.append ih

include H in
/-- By induction on the interruptions: the last read decides. -/
theorem Repeats.finished [History σ] {g : Except IoError Grant} (h : r.Repeats room ds g r')
    (hattested : r.Attested) (hroom : 0 < room.size) (hnothing : HandsOutNothing g) :
    r'.Finished ds := by
  induction h with
  | once hg => exact hg.finished (H := H) hattested hroom hnothing
  | again hg _ ih =>
    obtain ⟨hunread, hreported⟩ :=
      ih (hg.attests.attested hattested (draws_of_calls hg.calls)) hnothing
    refine ⟨hunread, hreported.imp id ?_⟩
    intro ⟨n, hlast⟩
    exact ⟨n, by rw [List.getLast?_append, hlast, Option.some_or]⟩

include H in
theorem ReadsPlain.nothing_of_idle {g : Except IoError Grant} (hg : r.ReadsPlain room ds g r')
    (hroom : 0 < room.size) {n : Nat} (hlast : ds.getLast? = some (.idle n)) :
    HandsOutNothing g := by
  apply (hg.handsOutNothing_iff (H := H) hroom).mpr
  rcases hg.call_when_empty with rfl | ⟨d, rfl, hunread, hfault⟩
  · cases hlast
  · obtain rfl : d = .idle n := Option.some.inj hlast
    exact .idle n hunread hfault

include H in
/-- By induction on the interruptions: an idle call interrupts nothing, so it is the last. -/
theorem Repeats.nothing_of_idle {g : Except IoError Grant} (h : r.Repeats room ds g r')
    (hroom : 0 < room.size) {n : Nat} (hlast : ds.getLast? = some (.idle n)) :
    HandsOutNothing g := by
  induction h with
  | once hg => exact hg.nothing_of_idle (H := H) hroom hlast
  | @again r r₁ r' ds es cause g hg _ ih =>
    rw [List.getLast?_append] at hlast
    cases hes : es.getLast? with
    | none =>
      rw [hes, Option.none_or] at hlast
      exact (hg.nothing_of_idle (H := H) hroom hlast).elim
    | some d =>
      rw [hes, Option.some_or] at hlast
      exact ih (hes.trans hlast)

/-- By induction on the rounds: the source made of a reader answers with what the last of
its plain reads tells. -/
theorem inputRounds_meets (hH : H .exhausted) (hroom : 0 < room.size) (rounds : Nat) (h : r.WF)
    {sh : Shared} :
    Act.Meets H (InputSource.readRounds rounds r room) sh fun (g, s) _ => ∃ ds answer,
      r.Repeats room ds answer s.input ∧ (g.fault = some .eof ↔ HandsOutNothing answer) := by
  induction rounds generalizing r sh with
  | zero => exact hH
  | succ rounds ih =>
    rw [InputSource.readRounds]
    refine Act.meets_bind.mpr ((plainRead_meets h room).imp ?_)
    rintro ⟨answer, r₁⟩ sh₁ ⟨ds, hg⟩
    dsimp only
    cases answer with
    | ok g =>
      dsimp only
      split
      · rename_i h0
        simp only [Bool.and_eq_true, decide_eq_true_eq] at h0
        exact ⟨ds, .ok g, .once hg, fun _ => h0.1, fun _ => rfl⟩
      · rename_i hne
        simp only [Bool.and_eq_true, decide_eq_true_eq, not_and] at hne
        refine ⟨ds, .ok g, .once hg, ?_, fun h0 => absurd hroom (hne h0)⟩
        intro heof
        cases heof
    | error cause =>
      dsimp only
      split
      · refine (ih (hg.wf h)).imp ?_
        rintro ⟨g, s⟩ sh₂ ⟨es, answer, hrest, hends⟩
        exact ⟨ds ++ es, answer, .again hg hrest, hends⟩
      · refine Act.meets_bind.mpr (Act.meets_of_eq rfl ?_)
        refine ⟨ds, .error cause, .once hg, ?_, fun hnothing => hnothing.elim⟩
        intro heof
        cases heof

/-! ## Telling the end -/

/-- What an answer to a plain read tells of the end, with the calls that were made. -/
def TellsEnd [History σ] (r : Reader σ) (g : Except IoError Grant) (r' : Reader σ) : Prop :=
  ∃ ds, draws r'.source = draws r.source ++ ds ∧ (HandsOutNothing g ↔ r.ComesToNothing ds) ∧
    (HandsOutNothing g → r'.Finished ds)

/-- **A plain input tells the end when nothing is left, or when its source was idle.**  Over
any honest source, in every state that the reader may be in, and with room for a byte: a
plain read hands out nothing just if nothing is unread and the end of the stream was latched,
or the one call on the source reports it, or that call was idle.  Then nothing is left
unread, and unless the call was idle the source has reported the end.  It is the same through
a duplex, and a source made of the reader reports the end of the stream on these conditions
only. -/
theorem plainRead_ends {σ κ : Type} [BulkSource σ] [HonestSource (· = Halt.exhausted) σ]
    [HonestBulkSource (· = Halt.exhausted) σ] {r : Reader (Traced σ)} (hr : r.Reachable)
    {room : Room} (hroom : 0 < room.size) (w : Writer κ) (sh : Shared) :
    (Act.Keeps (r.plainRead room) sh fun (g, r') _ => r.TellsEnd g r') ∧
    (Act.Keeps (PlainInput.read (⟨r, w⟩ : Duplex (Traced σ) κ) room) sh fun (g, d) _ =>
      r.TellsEnd g d.reader) ∧
    Act.Keeps (ByteSource.read (⟨r⟩ : InputSource (Reader (Traced σ))) room) sh fun (g, s) _ =>
      ∃ ds, draws s.input.source = draws r.source ++ ds ∧
        (g.fault = some .eof → s.input.Finished ds) ∧
        ((∃ n, ds.getLast? = some (.idle n)) → g.fault = some .eof) := by
  have hplain : Act.Keeps (r.plainRead room) sh fun (g, r') _ => r.TellsEnd g r' := by
    refine (plainRead_meets hr.wf room).imp ?_
    intro ⟨g, r'⟩ sh' ⟨ds, hg⟩
    exact ⟨ds, draws_of_calls hg.calls, hg.handsOutNothing_iff (H := (· = Halt.exhausted)) hroom,
      hg.finished (H := (· = Halt.exhausted)) hr.attested hroom⟩
  refine ⟨hplain, ?_, ?_⟩
  · exact Act.meets_bind.mpr (hplain.imp fun _ _ h => h)
  · refine Act.meets_bind.mpr (Act.meets_patience.mpr ?_)
    refine (inputRounds_meets (H := (· = Halt.exhausted)) rfl hroom _ hr.wf).imp ?_
    intro ⟨g, s⟩ sh' ⟨ds, answer, hrepeats, hends⟩
    refine ⟨ds, draws_of_calls hrepeats.calls, fun heof => ?_, fun ⟨n, hlast⟩ => ?_⟩
    · exact hrepeats.finished (H := (· = Halt.exhausted)) hr.attested hroom (hends.mp heof)
    · exact hends.mpr (hrepeats.nothing_of_idle (H := (· = Halt.exhausted)) hroom hlast)

/-- A source that is idle once before its letter comes. -/
def lateLetter : Script.Truthful where
  source := { items := [.idle 1, .piece [0x61] none] }

theorem plainRead_ends_lateLetter :
    0 < ({ size := 4 } : Room).size ∧
      (∃ a sh', (withCapacity (Traced.start lateLetter) 16 0).plainRead { size := 4 }
          { pools := [], patience := 9 } = .ok a sh' ∧
        (withCapacity (Traced.start lateLetter) 16 0).TellsEnd a.1 a.2) :=
  ⟨by decide, (plainRead_ends (.start (Traced.start lateLetter) 16 0) (by decide)
    { sink := ({} : MemorySink), size := 16, pool := 0 } _).1.exists_of_ends (by decide +kernel)⟩

/-- The reader tells the end although its source has not reported it, and the letter comes
with the next byte read. -/
theorem lateLetter_passed_over :
    ∃ r₁ sh₁ r₂ sh₂,
      (withCapacity (Traced.start lateLetter) 16 0).plainRead { size := 4 }
          { pools := [], patience := 9 } = .ok (.ok ⟨[], 0⟩, r₁) sh₁ ∧
        ¬ EndReported r₁.source ∧ r₁.readByte sh₁ = .ok (.ok 0x61, r₂) sh₂ := by
  refine ⟨_, _, _, _, rfl, ?_, rfl⟩
  intro ⟨d, hd, hfault⟩
  obtain rfl := List.mem_singleton.mp hd
  cases hfault

end Reader

end BufferedStream
