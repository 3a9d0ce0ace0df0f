import BufferedStream.Proofs.Reader.Latched

/-!
# Where a latched error comes from

A reader latches what its source reports, and an error of its own if the source kept
handing out nothing.  So whatever has been done with the reader, the error that it has
latched was reported in one of the calls made on its source.

* `Reader.Attests` — an operation latches no error but one that it found latched or that
  arose in its calls.
* `Reader.Performs.attests` — every operation does so.
* `Reader.writeTo_pours` — so does emptying the reader into a sink, which offers room in
  every call.
* `Reader.Reachable.attested` — so in every state the latched error has been reported.
-/

namespace BufferedStream

open History (draws)

/-- The error was reported in one of the calls, or is the reader's own. -/
def Reported (e : Error) (ds : List Draw) : Prop :=
  e = .noProgress ∨ ∃ d ∈ ds, d.reading.fault = some e

/-- The error arose in some of the calls, made in a row. -/
def Arises (e : Error) (ds : List Draw) : Prop :=
  ∃ before es after, ds = before ++ es ++ after ∧ e ∈ Reader.arisen es

theorem Reported.append_left {e : Error} {es : List Draw} (ds : List Draw) (h : Reported e es) :
    Reported e (ds ++ es) :=
  h.imp id fun ⟨d, hd, hfault⟩ => ⟨d, List.mem_append_right ds hd, hfault⟩

theorem Reported.append_right {e : Error} {ds : List Draw} (h : Reported e ds) (es : List Draw) :
    Reported e (ds ++ es) :=
  h.imp id fun ⟨d, hd, hfault⟩ => ⟨d, List.mem_append_left es hd, hfault⟩

namespace Arises

variable {e : Error} {ds es : List Draw}

theorem of_mem (h : e ∈ Reader.arisen ds) : Arises e ds := ⟨[], ds, [], by simp, h⟩

theorem append_left (ds : List Draw) (h : Arises e es) : Arises e (ds ++ es) := by
  obtain ⟨before, fs, after, rfl, hmem⟩ := h
  exact ⟨ds ++ before, fs, after, by simp, hmem⟩

theorem append_right (h : Arises e ds) (es : List Draw) : Arises e (ds ++ es) := by
  obtain ⟨before, fs, after, rfl, hmem⟩ := h
  exact ⟨before, fs, after ++ es, by simp, hmem⟩

theorem reported (h : Arises e ds) : Reported e ds := by
  obtain ⟨before, es, after, rfl, hmem⟩ := h
  exact (Reported.append_left before (Reader.mem_arisenAfter hmem)).append_right after

end Arises

namespace Reader

variable {σ κ : Type} {r r₁ r' : Reader σ} {ds es : List Draw} {H : Halt → Prop} {sh : Shared}

/-! ## What operations latch -/

/-- What is latched afterwards was latched before or arose in the calls. -/
def Attests (r : Reader σ) (ds : List Draw) (r' : Reader σ) : Prop :=
  ∀ e, r'.fault = some e → r.fault = some e ∨ Arises e ds

theorem attests_of_fault_eq (h : r'.fault = r.fault) : r.Attests ds r' := by
  intro e he
  exact .inl (h.symm.trans he)

theorem attests_of_none (h : r'.fault = none) : r.Attests ds r' := by
  intro e he
  rw [h] at he
  cases he

theorem Attests.congr (h : r.Attests ds r₁) (hfault : r'.fault = r₁.fault) : r.Attests ds r' := by
  intro e he
  exact h e (hfault.symm.trans he)

theorem Attests.trans (h : r.Attests ds r₁) (h' : r₁.Attests es r') :
    r.Attests (ds ++ es) r' := by
  intro e he
  rcases h' e he with hlatched | harises
  · exact (h e hlatched).imp id fun harises => harises.append_right es
  · exact .inr (harises.append_left ds)

section Operations

variable [ByteSource σ]

theorem Pulled.attests (hp : r.Pulled ds r') : r.Attests ds r' := by
  intro e he
  have hmem : e ∈ r.fault.toList ++ arisen ds := by
    rw [← hp.latched, he]
    exact List.mem_singleton_self e
  rcases List.mem_append.mp hmem with hlatched | harisen
  · exact .inl (Option.mem_toList.mp hlatched)
  · exact .inr (.of_mem harisen)

theorem Filled.attests (hf : r.Filled ds r') : r.Attests ds r' := by
  obtain ⟨s, fault, spare, length, -, hmade, rfl⟩ := hf
  intro e he
  cases fault with
  | none => exact .inl he
  | some e' =>
    obtain rfl : e' = e := Option.some.inj he
    refine .inr (.of_mem ?_)
    rw [hmade.arisen_eq]
    exact List.mem_singleton_self e'

theorem Peeks.attests {n : Nat} {p : Passage} (hp : r.Peeks n ds p r') : r.Attests ds r' := by
  cases hp with
  | tooLarge => exact attests_of_fault_eq rfl
  | seen hp => exact hp.attests
  | short => exact attests_of_none rfl

theorem ReadsInto.attests {room : Room} {g : Reading} (hr : r.ReadsInto room ds g r') :
    r.Attests ds r' := by
  cases hr with
  | nothing => exact attests_of_none rfl
  | through =>
    apply attests_of_fault_eq
    split <;> rfl
  | delivered _ hp _ _ hs => exact hp.attests.congr hs.fault_eq
  | dry => exact attests_of_none rfl

/-- An error that comes with bytes comes from the source itself. -/
theorem ReadsInto.arises {room : Room} {g : Reading} (hr : r.ReadsInto room ds g r')
    (hcount : 0 < g.count) {e : Error} (hfault : g.fault = some e) : Arises e ds := by
  cases hr with
  | nothing => exact absurd hcount (Nat.lt_irrefl 0)
  | through =>
    refine .of_mem ?_
    simp [arisenAfter, hfault]
  | delivered => cases hfault
  | dry => exact absurd hcount (Nat.lt_irrefl 0)

theorem ReadsPlain.attests {room : Room} {g : Except IoError Grant}
    (hg : r.ReadsPlain room ds g r') : r.Attests ds r' := by
  cases hg with
  | @delivered g r₁ hr hcount =>
    intro e he
    cases hfault : g.fault with
    | none =>
      rw [hfault] at he
      exact hr.attests e he
    | some e' =>
      rw [hfault] at he
      cases he
      exact .inr (hr.arises hcount hfault)
  | ended hr => exact hr.attests
  | failed _ hr => exact hr.attests

theorem ReadsByte.attests {b : Except Error UInt8} (hr : r.ReadsByte ds b r') :
    r.Attests ds r' := by
  cases hr with
  | got hp _ _ hs => exact hp.attests.congr hs.fault_eq
  | failed => exact attests_of_none rfl

theorem ReadsRune.attests {c : Except Error (Char × Nat)} (hr : r.ReadsRune ds c r') :
    r.Attests ds r' := by
  cases hr with
  | got hp => exact hp.attests
  | failed => exact attests_of_none rfl

theorem Scans.attests {delim : UInt8} {p : Passage} (hs : r.Scans delim ds p r') :
    r.Attests ds r' := by
  cases hs with
  | found hp => exact hp.attests
  | full hp => exact hp.attests
  | ended => exact attests_of_none rfl

theorem ReadsLine.attests {l : Except Error (Bytes × Bool)} (hl : r.ReadsLine ds l r') :
    r.Attests ds r' := by
  cases hl with
  | piece hs _ hb => rcases holdBackReturn_eq hb with ⟨-, rfl⟩ | ⟨-, rfl⟩ <;> exact hs.attests
  | line hs => exact hs.attests
  | failed hs => exact hs.attests

/-- By induction on the scans. -/
theorem Collects.attests {delim : UInt8} {p : Passage} (hc : r.Collects delim ds p r') :
    r.Attests ds r' := by
  induction hc with
  | last hs => exact hs.attests
  | more hs _ _ ih => exact Attests.trans hs.attests ih

theorem ShowsBuffer.attests {b : Except IoError Bytes} (hb : r.ShowsBuffer ds b r') :
    r.Attests ds r' := by
  cases hb with
  | shown hp => exact hp.attests
  | ended => exact attests_of_none rfl
  | failed => exact attests_of_none rfl

/-- **No operation latches an error of another origin.** -/
theorem Performs.attests {op : Op} {outcome : Outcome} (hp : r.Performs op ds outcome r') :
    r.Attests ds r' := by
  cases hp with
  | peek hp => exact hp.attests
  | read hr => exact hr.attests
  | readByte hb => exact hb.attests
  | unreadByte hu => exact attests_of_fault_eq hu.fault_eq
  | readRune hc => exact hc.attests
  | unreadRune hu => exact attests_of_fault_eq hu.fault_eq
  | readSlice hs => exact hs.attests
  | readLine hl => exact hl.attests
  | readBytes hc => exact hc.attests
  | readString hc hs => exact hc.attests.congr hs.fault_eq
  | plainRead hg => exact hg.attests
  | fillBuf hb => exact hb.attests
  | consume hc => exact attests_of_fault_eq hc.fault_eq
  | adapt ha => exact attests_of_fault_eq ha.fault_eq

end Operations

/-! ## What emptying latches -/

/-- The calls `ds` were added to those made on the source, every one of them with room, and
what is latched attests to them. -/
structure PoursOut [ByteSource σ] [History σ] (r : Reader σ) (ds : List Draw) (r' : Reader σ) :
    Prop where
  draws_eq : draws r'.source = draws r.source ++ ds
  roomy : ∀ d ∈ ds, 0 < d.offered
  attests : r.Attests ds r'

section Emptying

variable [ByteSink κ] [Keeping κ]

omit [ByteSink κ] in
/-- A drain without an error leaves nothing unread. -/
theorem Drains.unread_eq {k k' : κ} {n : Nat} (hd : r.Drains k ⟨n, none⟩ r' k') :
    r'.window.unread = [] := by
  cases hd with
  | nothing h => exact h
  | wrote _ _ hall hs =>
    rw [hs.unread_eq, hall rfl]
    exact List.drop_length

variable [ByteSource σ] [History σ]

/-- A move that makes no call. -/
theorem PoursOut.quiet (hsource : draws r'.source = draws r.source) (hfault : r'.fault = r.fault) :
    r.PoursOut [] r' where
  draws_eq := by rw [hsource, List.append_nil]
  roomy := by simp
  attests := attests_of_fault_eq hfault

theorem PoursOut.trans (h : r.PoursOut ds r₁) (h' : r₁.PoursOut es r') :
    r.PoursOut (ds ++ es) r' where
  draws_eq := by rw [h'.draws_eq, h.draws_eq, List.append_assoc]
  roomy d hd := (List.mem_append.mp hd).elim (h.roomy d) (h'.roomy d)
  attests := h.attests.trans h'.attests

omit [ByteSink κ] in
theorem Drains.poursOut {k k' : κ} {receipt : Receipt} (hd : r.Drains k receipt r' k') :
    r.PoursOut [] r' :=
  .quiet (by rw [hd.source_eq]) hd.fault_eq

/-- A filling of an empty buffer offers all of it. -/
theorem Filled.poursOut (hf : r.Filled ds r') (h : r.WF) (hunread : r.window.unread = []) :
    r.PoursOut ds r' := by
  have hattests := hf.attests
  obtain ⟨s, fault, spare, length, hcalls, hmade, rfl⟩ := hf
  have hpos := h.size_pos
  refine ⟨draws_of_calls hcalls, fun d hd => ?_, hattests⟩
  rw [hmade.offered_eq d hd, buffered, hunread]
  exact hpos

/-- By induction on the rounds, each of which starts with an empty buffer. -/
theorem drainRounds_pours [HonestSource H σ] [HonestSink H κ] (hH : H .exhausted)
    (rounds total : Nat) (k : κ) (h : r.WF) (hunread : r.window.unread = []) :
    Act.Meets H (drainRounds rounds total r k) sh fun (_, r', _) _ => ∃ ds, r.PoursOut ds r' := by
  induction rounds generalizing total r k sh with
  | zero => exact hH
  | succ rounds ih =>
    rw [drainRounds]
    refine Act.meets_bind.mpr ((fill_meets r).imp ?_)
    rintro r₁ sh₁ ⟨ds, hf⟩
    have hpours := hf.poursOut h hunread
    split
    · exact ⟨ds, hpours⟩
    · refine Act.meets_bind.mpr ((drain_meets r₁ k).imp ?_)
      rintro ⟨⟨n, fault⟩, r₂, k₁⟩ sh₂ hd
      dsimp only at hd ⊢
      have hdrained := hpours.trans hd.poursOut
      cases fault with
      | some e => exact ⟨_, hdrained⟩
      | none =>
        refine (ih _ k₁ (hd.wf (hf.wf h)) hd.unread_eq).imp ?_
        rintro ⟨-, r', -⟩ sh₃ ⟨es, hrest⟩
        exact ⟨_, hdrained.trans hrest⟩

end Emptying

/-- **Emptying offers room in every call**, whatever a bulk transfer does to the source. -/
theorem writeTo_pours [BulkSource σ] [HonestSource H σ] [HonestBulkSource H σ] [ByteSink κ]
    [Keeping κ] [HonestSink H κ] (hH : H .exhausted) {r : Reader (Traced σ)} (h : r.WF) (k : κ) :
    Act.Meets H (r.writeTo k) sh fun (_, r', _) _ => ∃ ds, r.PoursOut ds r' := by
  have hforget : r.forgetting.WF := ⟨h.1, h.2, h.3, h.4⟩
  have hstart : r.PoursOut [] r.forgetting := .quiet rfl rfl
  refine Act.meets_bind.mpr ((drain_meets r.forgetting k).imp ?_)
  intro ⟨⟨n, fault⟩, r₁, k₁⟩ sh₁ hd
  have hdrained := hstart.trans hd.poursOut
  dsimp only at hd ⊢
  cases fault with
  | some e => exact ⟨_, hdrained⟩
  | none =>
    refine Act.meets_bind.mpr ((r₁.source.writeTo_meets k₁ sh₁).imp ?_)
    intro ⟨bulk, s, k₂⟩ sh₂ ⟨_, _, _, hdraws⟩
    have hmoved : r.PoursOut [] { r₁ with source := s } := hdrained.trans (.quiet hdraws rfl)
    cases bulk with
    | some receipt => exact ⟨_, hmoved⟩
    | none =>
      have hwf : ({ r₁ with source := s } : Reader (Traced σ)).WF := by
        have hr₁ := hd.wf hforget
        exact ⟨hr₁.1, hr₁.2, hr₁.3, hr₁.4⟩
      refine Act.meets_bind.mpr (Act.meets_patience.mpr (Act.meets_bind.mpr
        ((drainRounds_pours hH _ _ k₂ hwf hd.unread_eq).imp ?_)))
      intro ⟨⟨m, fault⟩, r₂, k₃⟩ sh₃ ⟨ds, hpours⟩
      have hrounds := hmoved.trans hpours
      dsimp only at hpours hrounds ⊢
      cases fault with
      | some e => exact ⟨_, hrounds⟩
      | none =>
        refine Act.meets_bind.mpr ((concludeTransfer_meets r₂).imp ?_)
        intro ⟨fault, r'⟩ sh₄ ⟨r₃, hs, hr'⟩
        subst hr'
        exact ⟨_, by rw [← hrounds.draws_eq]; exact congrArg draws hs.source_eq, hrounds.roomy,
          attests_of_none rfl⟩

/-! ## Every state -/

/-- The latched error has been reported by the source, or is the reader's own. -/
def Attested [ByteSource σ] [History σ] (r : Reader σ) : Prop :=
  ∀ e, r.fault = some e → Reported e (draws r.source)

theorem Attests.attested [ByteSource σ] [History σ] (ha : r.Attests ds r') (h : r.Attested)
    (hdraws : draws r'.source = draws r.source ++ ds) : r'.Attested := by
  intro e he
  rw [hdraws]
  rcases ha e he with hlatched | harises
  · exact (h e hlatched).append_right ds
  · exact harises.reported.append_left _

/-- **In every state the latched error has been reported.**  By induction on what was done
with the reader. -/
theorem Reachable.attested [BulkSource σ] [HonestSource (· = Halt.exhausted) σ]
    [HonestBulkSource (· = Halt.exhausted) σ] {r : Reader (Traced σ)} (h : r.Reachable) :
    r.Attested := by
  induction h with
  | start s size pool =>
    intro e he
    cases he
  | @step κ _ _ _ r r' task result sh sh' hr hrun ih =>
    cases task with
    | op op =>
      have hm : Act.Keeps (execute (.op op : Task κ) r) sh fun x _ => x.2.Attested := by
        refine Act.meets_bind.mpr ((perform_meets (H := (· = Halt.exhausted)) rfl op hr.wf).imp ?_)
        intro ⟨outcome, r'⟩ sh' ⟨ds, hp⟩
        exact hp.attests.attested ih (draws_of_calls hp.calls)
      exact hm.of_ok hrun
    | writeTo k =>
      have hm : Act.Keeps (execute (.writeTo k) r) sh fun x _ => x.2.Attested := by
        refine Act.meets_bind.mpr ((writeTo_pours (H := (· = Halt.exhausted)) rfl hr.wf k).imp ?_)
        intro ⟨receipt, r', k'⟩ sh' ⟨ds, hpours⟩
        exact hpours.attests.attested ih hpours.draws_eq
      exact hm.of_ok hrun

end Reader

end BufferedStream
