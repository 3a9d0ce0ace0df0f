import BufferedStream.Proofs.Script
import BufferedStream.Proofs.Writer.Latching

/-!
# A failed write is the last

Once a write on its sink has failed a writer is done for: every operation reports
that failure, nothing is accepted, the sink is not called again, and neither what it
keeps nor what is queued changes.  A bulk intake that fails leaves no such mark: the
operation reports the failure, and the next one goes on as if nothing had happened.

* `Writer.Refuses`, `Writer.Reports`, `Writer.Succeeds` — the outcomes of an
  operation after a failed write, of the one that fails, and of all others.
* `Writer.Heeds` — an operation heeds the first failure among the writes.
* `Writer.run_heeds_first_failure` — every operation of every run does.
* `Writer.outliving_writes_again` — after a failed bulk intake the sink is called
  again.
-/

namespace BufferedStream

open Keeping (kept)

namespace Writer

variable {ν κ : Type}

/-! ## Outcomes -/

/-- The outcome of an operation that is refused with `e`.  The move to a larger buffer
reports nothing. -/
def Refuses (e : Error) : Op ν → Outcome ν → Prop
  | .write _, .receipt receipt => receipt = ⟨0, some e⟩
  | .writeText _, .receipt receipt => receipt = ⟨0, some e⟩
  | .writeByte _, .byte result => result = .error e
  | .writeRune _, .rune result => result = .error e
  | .readFrom s, .drew receipt t => receipt = ⟨0, some e⟩ ∧ t = Traced.start s
  | .flush, .flushed result => result = .error e
  | .plainWrite _, .plain result => result = .error (e.toIo true)
  | .plainFlush, .plainFlushed result => result = .error (e.toIo true)
  | .adapt _ _, .done => True
  | .intoSink, .refused e' => e' = e
  | _, _ => False

/-- The outcome of an operation reports `e`, unless it is that of a plain write which
has accepted some bytes. -/
def Reports (e : Error) : Op ν → Outcome ν → Prop
  | .write _, .receipt receipt => receipt.fault = some e
  | .writeText _, .receipt receipt => receipt.fault = some e
  | .writeByte _, .byte result => result = .error e
  | .writeRune _, .rune result => result = .error e
  | .readFrom _, .drew receipt _ => receipt.fault = some e
  | .flush, .flushed result => result = .error e
  | .plainWrite _, .plain result => result = .error (e.toIo true) ∨ ∃ n, 0 < n ∧ result = .ok n
  | .plainFlush, .plainFlushed result => result = .error (e.toIo true)
  | .intoSink, .refused e' => e' = e
  | _, _ => False

/-- The outcome of an operation whose calls on the sink were `cs`, none of them a write
that failed.  What a bulk intake answered is passed on as it is; of drawing a source
otherwise only the source can have said more. -/
def Succeeds : Op ν → Outcome ν → List Call → Prop
  | .write b, .receipt receipt, _ => receipt = ⟨b.length, none⟩
  | .writeText s, .receipt receipt, _ => receipt = ⟨(Bytes.ofText s).length, none⟩
  | .writeByte _, .byte result, _ => result = .ok ()
  | .writeRune c, .rune result, _ => result = .ok (Rune.encode c).length
  | .readFrom _, .drew receipt _, cs => ∀ bulk, .readFrom (some bulk) ∈ cs → receipt = bulk
  | .flush, .flushed result, _ => result = .ok ()
  | .plainWrite b, .plain result, _ => result = .ok b.length
  | .plainFlush, .plainFlushed result, _ => result = .ok ()
  | .adapt _ _, .done, _ => True
  | .intoSink, .returned, _ => True
  | _, .nothing, _ => True
  | _, _, _ => False

/-! ## Standings -/

/-- How things stand between a writer and its sink: the calls made so far, what the
sink keeps, and what is queued for it. -/
structure Standing where
  calls : List Call
  kept : Bytes
  queued : Bytes

variable [Keeping κ]

/-- How things stand at a stage; without a writer nothing is queued. -/
def Stage.standing : Stage (Watched κ) → Standing
  | .writing w => ⟨w.sink.calls, kept w.sink, w.queued⟩
  | .ended k => ⟨k.calls, kept k, []⟩

/-- **An operation heeds the first failure.**  The calls on the sink are made only as
long as no write has failed.  If one had failed before, the operation is refused and
nothing changes; if the first fails now, the operation reports it; otherwise it
succeeds. -/
structure Heeds (op : Op ν) (outcome : Outcome ν) (t t' : Standing) : Prop where
  calls : ∃ cs, t'.calls = t.calls ++ cs ∧ (cs ≠ [] → firstFailure t'.calls.dropLast = none) ∧
    (firstFailure t'.calls = none → Succeeds op outcome cs)
  refuses : ∀ e, firstFailure t.calls = some e → Refuses e op outcome ∧ t' = t
  reports : ∀ e, firstFailure t.calls = none → firstFailure t'.calls = some e →
    Reports e op outcome

/-- An entry of a run heeds the first failure. -/
def Heeded (entry : Entry (Op ν) (Outcome ν) (Stage (Watched κ))) (t t' : Standing) : Prop :=
  entry.state.standing = t' ∧ Heeds entry.op entry.outcome t t'

/-- The writer of a stage has latched the first failure, and is given up only if there
was none. -/
def Stage.Sound : Stage (Watched κ) → Prop
  | .writing w => w.fault = firstFailure w.sink.calls
  | .ended k => firstFailure k.calls = none

/-! ## Every operation heeds -/

section Operations

variable {w w' : Writer (Watched κ)} {op : Op ν} {outcome : Outcome ν}

/-- An operation heeds the first failure if its calls on the sink were latched and its
outcome tells what is latched. -/
theorem Heeds.of_latches {cs : List Call} {t' : Standing} {fault' : Option Error}
    (hsound : w.fault = firstFailure w.sink.calls) (hcalls : t'.calls = w.sink.calls ++ cs)
    (hlatches : Latches w.fault cs fault')
    (hrefused : ∀ e, w.fault = some e → Refuses e op outcome ∧ t' = (Stage.writing w).standing)
    (hreports : ∀ e, w.fault = none → fault' = some e → Reports e op outcome)
    (hsucceeds : fault' = none → Succeeds op outcome cs) :
    Heeds op outcome (Stage.writing w).standing t' ∧ fault' = firstFailure t'.calls := by
  have hfault : fault' = firstFailure t'.calls := by
    rw [hcalls, firstFailure_append, ← hsound]
    exact hlatches.fault_eq
  refine ⟨⟨⟨cs, hcalls, fun hne => ?_, fun hnone => ?_⟩, fun e he => ?_, fun e hnone he => ?_⟩,
    hfault⟩
  · obtain ⟨hnone, hquiet⟩ := hlatches.quiet hne
    rw [hcalls, List.dropLast_append_of_ne_nil hne, firstFailure_append, ← hsound, hnone, hquiet]
    rfl
  · exact hsucceeds (hfault.trans hnone)
  · exact hrefused e (hsound.trans he)
  · exact hreports e (hsound.trans hnone) (hfault.trans he)

theorem plainCount_reports {receipt : Receipt} {e : Error} (he : receipt.fault = some e) :
    plainCount receipt = .error (e.toIo true) ∨ ∃ n, 0 < n ∧ plainCount receipt = .ok n := by
  unfold plainCount
  split
  · rename_i hpos
    exact .inr ⟨_, hpos, rfl⟩
  · rw [he]
    exact .inl rfl

theorem plainCount_full (n : Nat) : plainCount ⟨n, none⟩ = .ok n := by
  cases n <;> rfl

variable [BulkSink κ]

/-- A flush, whatever is reported of it. -/
theorem FlushesOut.heeds {ss : List Send} (hsound : w.fault = firstFailure w.sink.calls)
    (hf : w.FlushesOut ss w')
    (hrefused : ∀ e, w'.fault = some e → Refuses e op outcome ∧ Reports e op outcome)
    (hsucceeds : w'.fault = none → Succeeds op outcome (ss.map Send.call)) :
    Heeds op outcome (Stage.writing w).standing (Stage.writing w').standing ∧
      w'.fault = firstFailure w'.sink.calls := by
  refine Heeds.of_latches hsound (Watched.calls_of_sends hf.sends) hf.latches
    (fun e he => ⟨(hrefused e (hf.latches.of_some he)).1, ?_⟩)
    (fun e _ he => (hrefused e he).2) hsucceeds
  have hsends := hf.sends
  rw [List.map_eq_nil_iff.mp (hf.latches.eq_nil he)] at hsends
  rw [Stage.standing, Stage.standing, hsends.nil_eq, hf.refused he]

/-- Every operation that does not draw a source heeds the first failure. -/
theorem Performs.heeds [ByteSource ν] {st : Stage (Watched κ)} (hp : w.Performs op outcome st)
    (hop : ∀ s, op ≠ .readFrom s) (hsound : w.fault = firstFailure w.sink.calls) :
    Heeds op outcome (Stage.writing w).standing st.standing ∧
      st.Sound := by
  cases hp with
  | write hw =>
    exact Heeds.of_latches hsound (Watched.calls_of_sends hw.sends) hw.latches
      (fun e he => ⟨(hw.refused he).1, by rw [(hw.refused he).2]⟩)
      (fun e _ he => hw.fault_eq.symm.trans he) hw.receipt_eq
  | writeText hw =>
    exact Heeds.of_latches hsound (Watched.calls_of_sends hw.sends) hw.latches
      (fun e he => ⟨(hw.refused he).1, by rw [(hw.refused he).2]⟩)
      (fun e _ he => hw.fault_eq.symm.trans he) hw.receipt_eq
  | writeByte hw =>
    exact Heeds.of_latches hsound (Watched.calls_of_sends hw.sends) hw.latches
      (fun e he => ⟨outcome_of_some _ (hw.latches.of_some he), by rw [hw.refused he]⟩)
      (fun e _ he => outcome_of_some _ he) (outcome_of_none _)
  | writeRune hw =>
    exact Heeds.of_latches hsound (Watched.calls_of_sends hw.sends) hw.latches
      (fun e he => ⟨outcome_of_some _ (hw.latches.of_some he), by rw [hw.refused he]⟩)
      (fun e _ he => outcome_of_some _ he) (outcome_of_none _)
  | readFrom => exact absurd rfl (hop _)
  | flush hf =>
    exact hf.heeds hsound (fun e he => ⟨outcome_of_some _ he, outcome_of_some _ he⟩)
      (outcome_of_none _)
  | @plainWrite b _ receipt _ hw =>
    refine Heeds.of_latches hsound (Watched.calls_of_sends hw.sends) hw.latches
      (fun e he => ⟨?_, by rw [(hw.refused he).2]⟩)
      (fun e _ he => plainCount_reports (hw.fault_eq.symm.trans he)) (fun hnone => ?_)
    · rw [(hw.refused he).1]
      rfl
    · rw [hw.receipt_eq hnone]
      exact plainCount_full b.length
  | plainFlush hf =>
    refine hf.heeds hsound (fun e he => ?_) (fun hnone => ?_)
    · rw [outcome_of_some _ he]
      exact ⟨rfl, rfl⟩
    · rw [outcome_of_none _ hnone]
      rfl
  | @adapt _ _ w' ha =>
    have hlatches : Latches w.fault [] w'.fault := by
      rw [ha.fault_eq]
      exact .nil _
    refine Heeds.of_latches hsound ?_ hlatches (fun e he => ⟨trivial, ?_⟩)
      (fun e hnone he => ?_) (fun _ => trivial)
    · rw [List.append_nil, Stage.standing, ha.sink_eq]
    · rw [Stage.standing, Stage.standing, ha.sink_eq, ha.queued_eq]
    · rw [ha.fault_eq, hnone] at he
      cases he
  | refused hf he =>
    refine hf.heeds hsound (fun e' he' => ?_) (fun hnone => ?_)
    · cases he.symm.trans he'
      exact ⟨rfl, rfl⟩
    · rw [hnone] at he
      cases he
  | @returned _ w' hf hnone =>
    have hheeds : Heeds (.intoSink : Op ν) .returned (Stage.writing w).standing
        (Stage.ended w'.sink).standing ∧ w'.fault = firstFailure w'.sink.calls :=
      Heeds.of_latches hsound (Watched.calls_of_sends hf.sends) hf.latches
        (fun e he => by rw [hf.latches.of_some he] at hnone; cases hnone)
        (fun e _ he => by rw [he] at hnone; cases hnone) (fun _ => trivial)
    exact ⟨hheeds.1, hheeds.2.symm.trans hnone⟩

/-! ## Drawing a source -/

variable {σ : Type} [ByteSource σ]

/-- The ways of drawing a source into a watched sink, with the calls made on the sink.
A sink that cannot draw is asked in vain. -/
inductive Intakes (w : Writer (Watched κ)) (s : σ) :
    List Call → Receipt → Writer (Watched κ) → σ → Prop
  | failed {e : Error} (he : w.fault = some e) : Intakes w s [] ⟨0, some e⟩ w s
  | bulk {receipt : Receipt} {t : Watched κ} {s' : σ} (hnone : w.fault = none)
      (hcalls : t.calls = w.sink.calls ++ [.readFrom (some receipt)]) :
      Intakes w s [.readFrom (some receipt)] receipt { w with sink := t } s'
  | byTurns {asked : List Call} {t : Watched κ} {ss : List Send} {ds : List Draw}
      {receipt : Receipt} {w' : Writer (Watched κ)} {s' : σ} (hnone : w.fault = none)
      (hasked : asked = [] ∨ asked = [.readFrom none]) (hcalls : t.calls = w.sink.calls ++ asked)
      (hd : Draws { w with sink := t } s ss ds receipt w' s') :
      Intakes w s (asked ++ ss.map Send.call) receipt w' s'

theorem readFrom_meets_watched {H : Halt → Prop} {sh : Shared} [HonestSource H σ] [HonestSink H κ]
    [HonestBulkSink H κ] (hH : H .exhausted) (w : Writer (Watched κ)) (s : σ) :
    Act.Meets H (w.readFrom s) sh fun (receipt, w', s') _ => ∃ cs,
      w.Intakes s cs receipt w' s' := by
  have hturns : ∀ {asked : List Call} {t : Watched κ} (sh : Shared), w.fault = none →
      asked = [] ∨ asked = [.readFrom none] → t.calls = w.sink.calls ++ asked →
      Act.Meets H (do Writer.drawRounds (← Act.patience) 0 { w with sink := t } s) sh
        fun (receipt, w', s') _ => ∃ cs, w.Intakes s cs receipt w' s' := by
    intro asked t sh hnone hasked hcalls
    refine Act.meets_bind.mpr (Act.meets_patience.mpr ((drawRounds_meets hH _ 0 _ s).imp ?_))
    rintro ⟨receipt, w', s'⟩ sh' ⟨ss, ds, r, hd, rfl⟩
    rw [Nat.zero_add]
    exact ⟨_, .byTurns hnone hasked hcalls hd⟩
  unfold readFrom
  split
  · rename_i hsome
    obtain ⟨e, he⟩ := Option.isSome_iff_exists.mp hsome
    rw [Act.meets_pure, he]
    exact ⟨[], .failed he⟩
  · rename_i hnone
    rw [Option.not_isSome_iff_eq_none] at hnone
    split
    · refine Act.meets_bind.mpr ((Watched.readFrom_meets w.sink s sh).imp ?_)
      rintro ⟨receipt, t, s'⟩ sh' ⟨hcalls, hbulk⟩
      cases receipt with
      | none =>
        obtain ⟨-, rfl⟩ := hbulk
        exact hturns sh' hnone (.inr rfl) hcalls
      | some receipt => exact ⟨_, .bulk hnone hcalls⟩
    · exact hturns sh hnone (.inl rfl) (List.append_nil _).symm

namespace Intakes

variable {s s' : σ} {cs : List Call} {receipt : Receipt} {e : Error}

theorem wf (h : w.Intakes s cs receipt w' s') (hw : w.WF) : w'.WF := by
  have hsink : ∀ t : Watched κ, Writer.WF { w with sink := t } :=
    fun t => ⟨hw.size_pos, hw.fits, hw.queued_of_held⟩
  cases h with
  | failed => exact hw
  | bulk => exact hsink _
  | byTurns _ _ _ hd => exact hd.wf (hsink _)

theorem calls (h : w.Intakes s cs receipt w' s') : w'.sink.calls = w.sink.calls ++ cs := by
  cases h with
  | failed => exact (List.append_nil _).symm
  | bulk _ hcalls => exact hcalls
  | byTurns _ _ hcalls hd => rw [Watched.calls_of_sends hd.sends, hcalls, List.append_assoc]

/-- A bulk intake latches nothing. -/
theorem latches (h : w.Intakes s cs receipt w' s') : Latches w.fault cs w'.fault := by
  cases h with
  | failed => exact .nil _
  | bulk hnone =>
    show Latches w.fault _ w.fault
    rw [hnone]
    exact .single _
  | byTurns hnone hasked _ hd =>
    rcases hasked with rfl | rfl
    · exact hd.latches
    · have hd := hd.latches
      dsimp only at hd
      rw [hnone] at hd ⊢
      exact (Latches.single (.readFrom none)).append hd

theorem refused (h : w.Intakes s cs receipt w' s') (he : w.fault = some e) :
    receipt = ⟨0, some e⟩ ∧ w' = w ∧ s' = s := by
  cases h with
  | failed he' =>
    cases he.symm.trans he'
    exact ⟨rfl, rfl, rfl⟩
  | bulk hnone => rw [hnone] at he; cases he
  | byTurns hnone => rw [hnone] at he; cases he

theorem reports (h : w.Intakes s cs receipt w' s') (hnone : w.fault = none)
    (he : w'.fault = some e) : receipt.fault = some e := by
  cases h with
  | failed => rw [hnone] at he; cases he
  | bulk => rw [show w.fault = some e from he] at hnone; cases hnone
  | byTurns _ _ _ hd => exact hd.reports he

/-- The answer to a bulk intake is passed on as it is. -/
theorem passes_on (h : w.Intakes s cs receipt w' s') {bulk : Receipt}
    (hbulk : .readFrom (some bulk) ∈ cs) : receipt = bulk := by
  cases h with
  | failed => cases hbulk
  | bulk => cases List.mem_singleton.mp hbulk; rfl
  | byTurns _ hasked =>
    rcases List.mem_append.mp hbulk with hbulk | hbulk
    · rcases hasked with rfl | rfl
      · cases hbulk
      · cases List.mem_singleton.mp hbulk
    · obtain ⟨send, -, hsend⟩ := List.mem_map.mp hbulk
      cases hsend

/-- Drawing a source heeds the first failure. -/
theorem heeds {s : ν} [ByteSource ν] {t : Traced ν}
    (h : w.Intakes (Traced.start s) cs receipt w' t)
    (hsound : w.fault = firstFailure w.sink.calls) :
    Heeds (.readFrom s) (.drew receipt t) (Stage.writing w).standing (Stage.writing w').standing ∧
      w'.fault = firstFailure w'.sink.calls := by
  refine Heeds.of_latches hsound h.calls h.latches (fun e he => ?_)
    (fun e hnone he => h.reports hnone he) (fun _ bulk hbulk => h.passes_on hbulk)
  obtain ⟨hreceipt, hw, ht⟩ := h.refused he
  exact ⟨⟨hreceipt, ht⟩, by rw [hw]⟩

end Intakes

end Operations

/-! ## Runs -/

variable [ByteSource ν] [HonestSource (· = Halt.exhausted) ν] [BulkSink κ]
  [HonestSink (· = Halt.exhausted) κ] [HonestBulkSink (· = Halt.exhausted) κ]

/-- An operation heeds the first failure, and leaves a stage in order. -/
theorem perform_heeds (op : Op ν) (st : Stage (Watched κ)) (sh : Shared)
    (hst : st.WF ∧ st.Sound) :
    Act.Keeps (perform op st) sh fun (outcome, st') _ =>
      Heeds op outcome st.standing st'.standing ∧ st'.WF ∧ st'.Sound := by
  cases st with
  | ended k =>
    obtain ⟨-, hnone⟩ := hst
    refine ⟨⟨⟨[], (List.append_nil _).symm, fun h => absurd rfl h, fun _ => ?_⟩, fun e he => ?_,
      fun e _ he => ?_⟩, trivial, hnone⟩
    · cases op <;> trivial
    · cases hnone.symm.trans he
    · cases hnone.symm.trans he
  | writing w =>
    obtain ⟨hwf, hsound⟩ := hst
    have hothers : (∀ s, op ≠ .readFrom s) →
        Act.Keeps (perform op (.writing w)) sh fun (outcome, st') _ =>
          Heeds op outcome (Stage.writing w).standing st'.standing ∧ st'.WF ∧ st'.Sound := by
      intro hop
      refine (perform_meets_of_readFrom op hwf fun s h => absurd h (hop s)).imp ?_
      rintro ⟨outcome, st'⟩ sh' hp
      obtain ⟨hheeds, hsound'⟩ := hp.heeds hop hsound
      exact ⟨hheeds, hp.wf hwf, hsound'⟩
    cases op with
    | readFrom s =>
      refine Act.meets_bind.mpr ((readFrom_meets_watched (H := (· = Halt.exhausted)) rfl w
        (Traced.start s)).imp ?_)
      rintro ⟨receipt, w', t⟩ sh' ⟨cs, hi⟩
      obtain ⟨hheeds, hsound'⟩ := hi.heeds hsound
      exact ⟨hheeds, hi.wf hwf, hsound'⟩
    | write | writeText | writeByte | writeRune | flush | plainWrite | plainFlush | adapt
    | intoSink =>
      exact hothers (by rintro s ⟨⟩)

/-- **A failed write is the last.**  Over any honest sink, whether it can draw sources
or not, with a buffer of any size and any pools, every operation of every run heeds the
first failure among the writes that the writer has made on its sink. -/
theorem run_heeds_first_failure (k : κ) (size : Nat) (pool : PoolId) (ops : List (Op ν))
    (sh : Shared) :
    Act.Keeps
      (do Act.performAll perform ops (.writing (← withCapacity (Watched.start k) size pool)))
      sh fun entries _ =>
        entries.map Entry.op = ops ∧
          Follows Heeded { calls := [], kept := kept k, queued := [] } entries := by
  refine Act.meets_bind.mpr ((withCapacity_meets (Watched.start k) size pool).imp ?_)
  rintro w sh₁ ⟨hfresh, -, -⟩
  have hsound : (Stage.writing w).Sound := by
    show w.fault = firstFailure w.sink.calls
    rw [hfresh.fault, hfresh.sink]
    rfl
  have hrun : Act.Keeps (Act.performAll perform ops (.writing w)) sh₁ fun entries _ =>
      Chain (fun st op outcome st' => Heeds op outcome st.standing st'.standing) (.writing w)
        entries ∧ entries.map Entry.op = ops :=
    Act.performAll_meets (I := fun st => st.WF ∧ st.Sound) ops (fun op _ => perform_heeds op)
      ⟨hfresh.wf, hsound⟩ sh₁
  refine hrun.imp ?_
  rintro entries sh' ⟨hchain, hops⟩
  refine ⟨hops, hchain.follows (R := fun st t => st.standing = t) ?_ ?_⟩
  · rintro st t op outcome st' rfl hheeds
    exact ⟨st'.standing, ⟨rfl, hheeds⟩, rfl⟩
  · rw [Stage.standing, hfresh.sink, hfresh.queued]
    rfl

/-- A failure of the system under a sink. -/
def gone : Error := .io 0 (.text .brokenPipe "gone")

/-- A sink that takes two bytes and fails. -/
def breaking : Script.TruthfulSink where
  sink := { items := [.take 2 (some gone)], data := [0x21] }

/-- The third operation finds the sink failing; after that nothing is accepted. -/
def stubbornOps : List (Op Script.Truthful) :=
  [.write [0x61, 0x62], .writeByte 0x63, .plainWrite [0x64, 0x65, 0x66, 0x67], .write [], .flush,
    .readFrom ⟨{ items := [.piece [0x68] (some .eof)] }, by decide⟩, .adapt 9 1, .writeRune 'é',
    .plainFlush, .intoSink]

theorem run_heeds_first_failure_breaking :
    ∃ entries sh',
      (do Act.performAll perform stubbornOps
            (.writing (← withCapacity (Watched.start breaking) 4 0)) : Act _)
        { pools := [], patience := 9 } = .ok entries sh' ∧
      entries.map Entry.op = stubbornOps ∧
        Follows Heeded { calls := [], kept := kept breaking, queued := [] } entries :=
  (run_heeds_first_failure breaking 4 0 stubbornOps _).exists_of_ends (by decide +kernel)

/-! ## After a failed bulk intake -/

/-- A sink that draws two bytes of a source and then fails. -/
def outliving : Script.TruthfulSink where
  sink := { items := [], bulk := [(2, some gone)] }

/-- A source of three bytes. -/
def threeBytes : Script.Truthful := ⟨{ items := [.piece [0x78, 0x79, 0x7a] none] }, by decide⟩

/-- A bulk intake by the sink fails, which the source has no part in; yet the writer
accepts more bytes, and writes them on the sink that has failed. -/
theorem outliving_writes_again :
    ∃ entries sh' t,
      (do Act.performAll perform [.readFrom threeBytes, .write [0x61, 0x62, 0x63], .flush]
            (.writing (← withCapacity (Watched.start outliving) 8 0)) : Act _)
        { pools := [], patience := 9 } = .ok entries sh' ∧
      entries.map Entry.outcome =
        [.drew ⟨2, some gone⟩ t, .receipt ⟨3, none⟩, .flushed (.ok ())] ∧
      t.draws.map (fun d => d.reading.fault) = [none] ∧
      entries.map (fun entry => entry.state.standing.calls) =
        [[.readFrom (some ⟨2, some gone⟩)], [.readFrom (some ⟨2, some gone⟩)],
          [.readFrom (some ⟨2, some gone⟩), .write [0x61, 0x62, 0x63] 3 none]] :=
  ⟨_, _, _, rfl, rfl, rfl, rfl⟩

end Writer

end BufferedStream
