import BufferedStream.Proofs.Reader.Balance
import BufferedStream.Proofs.Script

/-!
# A reader surfaces each error once and in place

Along a run books are kept (`Ledger`) of the calls made on the source, of the
errors that arose in them and of those that operations surfaced.

* `Reader.Booked` — what one operation enters in the books, and what then holds
  of them.
* `Reader.run_surfaces_each_error` — the books of a whole run.
-/

namespace BufferedStream

open History (draws)

/-- The books of a run. -/
structure Ledger where
  /-- The calls made on the source so far. -/
  draws : List Draw := []
  /-- The errors that arose in them. -/
  arisen : List Error := []
  /-- The errors that operations surfaced. -/
  surfaced : List Error := []
  /-- The error that is latched. -/
  latched : Option Error := none

namespace Reader

/-- What arises is reported by the source, or is the reader's own. -/
theorem mem_arisenAfter {e : Error} {idle : Nat} {ds : List Draw}
    (h : e ∈ arisenAfter idle ds) : e = .noProgress ∨ ∃ d ∈ ds, d.reading.fault = some e := by
  induction ds generalizing idle with
  | nil => cases h
  | cons d ds ih =>
    have hrest : ∀ idle, e ∈ arisenAfter idle ds →
        e = .noProgress ∨ ∃ d' ∈ d :: ds, d'.reading.fault = some e := fun idle he =>
      (ih he).imp id fun ⟨d', hd', hf⟩ => ⟨d', List.mem_cons_of_mem d hd', hf⟩
    rw [arisenAfter] at h
    split at h
    · rename_i hfault
      rcases List.mem_cons.mp h with rfl | he
      · exact .inr ⟨d, List.mem_cons_self, hfault⟩
      · exact hrest 0 he
    · split at h
      · exact hrest 0 h
      · split at h
        · rcases List.mem_cons.mp h with rfl | he
          · exact .inl rfl
          · exact hrest 0 he
        · exact hrest _ h

variable {σ : Type} [ByteSource σ]

/-- Nothing that arises tells of a full buffer, if the errors of the source are its own. -/
theorem full_not_mem_arisen {s s' : σ} {front ds : List Draw} (hown : NeverFull s)
    (hcalls : Calls s (front ++ ds) s') : Error.bufferFull ∉ arisen ds := by
  intro hmem
  rcases mem_arisenAfter hmem with heq | ⟨d, hd, hfault⟩
  · cases heq
  · exact hown _ _ hcalls d (List.mem_append_right _ hd) hfault

theorem foreign_of_neverFull {s s' : σ} {front ds : List Draw} {before : Option Error}
    (hown : NeverFull s) (hcalls : Calls s (front ++ ds) s')
    (hbefore : before ≠ some .bufferFull) : Foreign before ds := by
  rw [Foreign, List.mem_append, not_or, Option.mem_toList]
  exact ⟨hbefore, full_not_mem_arisen hown hcalls⟩

variable [History σ]

/-- What an operation enters in the books: the calls `ds` that it made and the
errors `es` that it surfaced. -/
structure Enters (entry : Entry Op Outcome (Reader σ)) (t t' : Ledger) (ds : List Draw)
    (es : List Error) : Prop where
  draws : t'.draws = t.draws ++ ds
  arisen : t'.arisen = t.arisen ++ arisen ds
  surfaced : t'.surfaced = t.surfaced ++ es
  source : t'.draws = History.draws entry.state.source
  latched : t'.latched = entry.state.fault
  surfaces : Surfaces entry.op entry.outcome (t.latched.toList ++ Reader.arisen ds) es
  /-- Whenever a call is made, no error is latched: none was before, and none has
  arisen in the calls in front of it. -/
  unlatched : ∀ front d rest, ds = front ++ d :: rest →
    t.latched = none ∧ Reader.arisen front = []
  emptied : es ≠ [] → ¬ entry.op.IsPeek → entry.state.window.unread = []

/-- One entry of a run in the books; what arose is what was surfaced and what is
latched, in this order. -/
def Booked (entry : Entry Op Outcome (Reader σ)) (t t' : Ledger) : Prop :=
  (∃ ds es, Enters entry t t' ds es) ∧ t'.arisen = t'.surfaced ++ t'.latched.toList

/-! ## Keeping the books -/

/-- The books tell the state of the reader, whose source was `s` at first. -/
structure InBooks (s : σ) (r : Reader σ) (t : Ledger) : Prop where
  wf : r.WF
  source : t.draws = draws r.source
  calls : Calls s t.draws r.source
  latched : t.latched = r.fault
  foreign : Error.bufferFull ∉ t.arisen
  balance : t.arisen = t.surfaced ++ t.latched.toList

variable {s : σ} {r r' : Reader σ} {t : Ledger}

/-- Calls are made only while nothing is latched. -/
theorem Balanced.unlatched {before after : Option Error} {ds : List Draw} {es : List Error}
    (h : Balanced before after ds es) {front rest : List Draw} {d : Draw}
    (hds : ds = front ++ d :: rest) : before = none ∧ arisen front = [] := by
  subst hds
  refine ⟨h.fault_of_calls (by simp), ?_⟩
  have hquiet := h.quiet
  rw [List.dropLast_append_of_ne_nil (List.cons_ne_nil _ _)] at hquiet
  obtain ⟨idle, hsplit⟩ := arisenAfter_prefix 0 front (d :: rest).dropLast
  exact (List.append_eq_nil_iff.mp (Eq.trans hsplit.symm hquiet)).1

/-- **Every operation keeps the books.** -/
theorem InBooks.performs {op : Op} {ds : List Draw} {outcome : Outcome} (h : InBooks s r t)
    (hown : NeverFull s) (hopen : op.IsOpen) (hp : r.Performs op ds outcome r') :
    ∃ t', Booked ⟨op, outcome, r'⟩ t t' ∧ InBooks s r' t' := by
  have hcalls : Calls s (t.draws ++ ds) r'.source := h.calls.append hp.calls
  have hforeign : Error.bufferFull ∉ t.arisen ++ arisen ds := by
    rw [List.mem_append, not_or]
    exact ⟨h.foreign, full_not_mem_arisen hown hcalls⟩
  have hpending : Foreign r.fault ds := by
    rw [h.balance, h.latched, List.append_assoc, List.mem_append, not_or] at hforeign
    exact hforeign.2
  obtain ⟨es, hsurfaces, hbalanced, hunread⟩ := hp.balanced hopen hpending
  have hdraws : t.draws ++ ds = draws r'.source := by
    rw [h.source, draws_of_calls hp.calls]
  have hbalance : t.arisen ++ arisen ds = (t.surfaced ++ es) ++ r'.fault.toList := by
    rw [h.balance, h.latched, List.append_assoc, hbalanced.balance, List.append_assoc]
  refine ⟨⟨t.draws ++ ds, t.arisen ++ arisen ds, t.surfaced ++ es, r'.fault⟩,
    ⟨⟨ds, es, ?_⟩, hbalance⟩, ?_⟩
  · exact
      { draws := rfl
        arisen := rfl
        surfaced := rfl
        source := hdraws
        latched := rfl
        surfaces := h.latched ▸ hsurfaces
        unlatched := fun _ _ _ hds => h.latched ▸ hbalanced.unlatched hds
        emptied := hunread }
  · exact
      { wf := hp.wf h.wf
        source := hdraws
        calls := hcalls
        latched := rfl
        foreign := hforeign
        balance := hbalance }

/-- One step of a run of operations that pass on errors. -/
def StepsOpenly (r : Reader σ) (op : Op) (outcome : Outcome) (r' : Reader σ) : Prop :=
  op.IsOpen ∧ ∃ ds, r.Performs op ds outcome r'

/-- **A reader surfaces each error once and in place.**  Over any honest source
whose errors are its own, every run of operations that pass on errors can be
booked. -/
theorem run_surfaces_each_error {σ : Type} [ByteSource σ]
    [HonestSource (· = Halt.exhausted) σ] (s : σ) (hown : NeverFull s) (size : Nat) (pool : PoolId)
    (ops : List Op) (hopen : ∀ op ∈ ops, op.IsOpen) (sh : Shared) :
    Act.Keeps (Act.performAll perform ops (withCapacity (Traced.start s) size pool)) sh
      fun entries _ => entries.map Entry.op = ops ∧ Follows Booked {} entries := by
  have hown : NeverFull (Traced.start s) := Traced.neverFull hown
  have hstart : InBooks (Traced.start s) (withCapacity (Traced.start s) size pool) {} :=
    { wf := wf_withCapacity _ size pool
      source := rfl
      calls := .nil _
      latched := rfl
      foreign := List.not_mem_nil
      balance := rfl }
  have hstep : ∀ op ∈ ops, ∀ (r : Reader (Traced σ)) sh, r.WF →
      Act.Keeps (perform op r) sh fun (outcome, r') _ =>
        r.StepsOpenly op outcome r' ∧ r'.WF := by
    intro op hop r sh hwf
    refine (perform_meets (H := (· = Halt.exhausted)) rfl op hwf).imp ?_
    rintro ⟨outcome, r'⟩ sh' ⟨ds, hp⟩
    exact ⟨⟨hopen op hop, ds, hp⟩, hp.wf hwf⟩
  refine (Act.performAll_meets ops hstep hstart.wf sh).imp ?_
  rintro entries sh' ⟨hchain, hops⟩
  refine ⟨hops, hchain.follows (R := InBooks (Traced.start s)) ?_ hstart⟩
  rintro r t op outcome r' ht ⟨hopen, ds, hp⟩
  exact ht.performs hown hopen hp

/-- A source that fails in the middle, has nothing for a long while, and ends
together with its last bytes. -/
def failing : Script.Truthful where
  source :=
    { items := [.piece [0x68, 0x69] (some (.io 7 (.bare .connectionReset))), .idle 120,
        .piece [0x61, 0x62, 0x63] (some .eof)] }

/-- The failure is surfaced by a collected record, the reader's own one by the
buffer, and the end of the stream by a plain read, once the last bytes are gone. -/
def openOps : List Op :=
  [.peek 1, .readByte, .unreadByte, .readBytes 0x0a, .fillBuf, .readRune, .unreadRune,
    .plainRead ⟨2, []⟩, .consume 1, .plainRead ⟨2, []⟩]

theorem run_surfaces_each_error_failing :
    ∃ entries sh',
      Act.performAll perform openOps (withCapacity (Traced.start failing) 16 0)
        { pools := [], patience := 9 } = .ok entries sh' ∧
      entries.map Entry.op = openOps ∧ Follows Booked {} entries :=
  (run_surfaces_each_error failing (failing.neverFull rfl) 16 0 openOps
    (by simp [openOps, Op.IsOpen]) _).exists_of_ends (by decide +kernel)

end Reader

end BufferedStream
