import BufferedStream.Proofs.Run
import BufferedStream.Proofs.Writer.Draw
import BufferedStream.Proofs.Writer.Write

/-!
# Operations on a writer as data

To speak of runs, the operations on a writer are taken as data (`Writer.Op`).  The
last of a run may give the writer up for its sink, so a run goes through stages
(`Writer.Stage`).

* `Writer.Performs` — what an operation does, whichever it is.
* `Writer.perform_meets` — over an honest sink every operation does one of these
  things, and leaves a well-formed writer.
-/

namespace BufferedStream

open Keeping (kept)

namespace Writer

variable {ν κ : Type} {H : Halt → Prop} {sh : Shared}

/-! ## Flushing and changing hands -/

section Hands

variable [ByteSink κ] [Keeping κ]

/-- Passing the queue on, after which the block may go back. -/
def FlushesOut (w : Writer κ) (ss : List Send) (w' : Writer κ) : Prop :=
  ∃ w₁, w.Flushes ss w₁ ∧ w₁.Settles w'

theorem flush_meets [HonestSink H κ] (w : Writer κ) :
    Act.Meets H w.flush sh fun (result, w') _ => ∃ ss,
      w.FlushesOut ss w' ∧ result = w'.outcome () := by
  refine Act.meets_bind.mpr ((flushQueue_meets w).imp ?_)
  rintro w₁ sh₁ ⟨ss, hf⟩
  refine Act.meets_bind.mpr ((settle_meets w₁).imp ?_)
  intro w' sh' hs
  exact ⟨ss, ⟨w₁, hf, hs⟩, by rw [outcome, outcome, hs.fault_eq]⟩

namespace FlushesOut

variable {w w' : Writer κ} {ss : List Send}

theorem sends (h : w.FlushesOut ss w') : Sends w.sink ss w'.sink := by
  obtain ⟨w₁, hf, hs⟩ := h
  exact hs.sink_eq ▸ hf.sends

theorem holds_eq (h : w.FlushesOut ss w') : w'.holds = w.holds := by
  obtain ⟨w₁, hf, hs⟩ := h
  exact hs.holds_eq.trans hf.holds_eq

theorem wf (h : w.FlushesOut ss w') (hw : w.WF) : w'.WF := by
  obtain ⟨w₁, hf, hs⟩ := h
  exact hs.wf (hf.wf hw)

theorem queued_eq_nil (h : w.FlushesOut ss w') (hfault : w'.fault = none) : w'.queued = [] := by
  obtain ⟨w₁, hf, hs⟩ := h
  exact hs.queued_eq.trans (hf.queued_eq_nil (hs.fault_eq.symm.trans hfault))

end FlushesOut

end Hands

/-- The ways of getting a buffer of at least the given size. -/
inductive Adapts (size : Nat) (pool : PoolId) (w : Writer κ) : Writer κ → Prop
  | kept (h : size ≤ w.size) : Adapts size pool w w
  | regrown {held : Option Nat} {spare : Bytes} (h : w.size < size)
      (hheld : held = none → w.queued = []) :
      Adapts size pool w { w with size, pool, held, spare }

theorem Adapts.fault_eq {size : Nat} {pool : PoolId} {w w' : Writer κ}
    (h : w.Adapts size pool w') : w'.fault = w.fault := by
  cases h <;> rfl

theorem Adapts.sink_eq {size : Nat} {pool : PoolId} {w w' : Writer κ}
    (h : w.Adapts size pool w') : w'.sink = w.sink := by
  cases h <;> rfl

theorem Adapts.queued_eq {size : Nat} {pool : PoolId} {w w' : Writer κ}
    (h : w.Adapts size pool w') : w'.queued = w.queued := by
  cases h <;> rfl

theorem Adapts.wf {size : Nat} {pool : PoolId} {w w' : Writer κ} (h : w.Adapts size pool w')
    (hw : w.WF) : w'.WF := by
  cases h with
  | kept => exact hw
  | regrown hlt hheld =>
    exact ⟨Nat.lt_of_le_of_lt (Nat.zero_le _) hlt,
      Nat.le_trans hw.fits (Nat.le_of_lt hlt), hheld⟩

theorem Adapts.holds_eq [Keeping κ] {size : Nat} {pool : PoolId} {w w' : Writer κ}
    (h : w.Adapts size pool w') : w'.holds = w.holds := by
  cases h <;> rfl

theorem adapt_meets {w : Writer κ} (h : w.WF) (size : Nat) (pool : PoolId) :
    Act.Meets H (w.adapt size pool) sh fun w' _ => w.Adapts size pool w' := by
  unfold adapt
  split
  · rename_i hle
    exact .kept hle
  · rename_i hlt
    have hlt := Nat.lt_of_not_le hlt
    have hpos : 0 < size := Nat.lt_of_le_of_lt (Nat.zero_le _) hlt
    refine Act.meets_bind.mpr ((withCapacity_meets w.sink size pool).imp ?_)
    rintro ⟨sink, size', pool', queued, spare, held, fault⟩ sh₁ ⟨hfresh, hpool, hsize⟩
    obtain ⟨hsink, -, hqueued, hheld, hfault⟩ := hfresh
    replace hsize := hsize hpos
    dsimp only at hsink hqueued hheld hfault hpool hsize
    subst hsink hqueued hheld hfault hpool hsize
    dsimp only
    split
    · refine Act.meets_bind.mpr ((acquire_meets _).imp ?_)
      rintro w' sh' ⟨length, spare, rfl⟩
      refine Act.meets_bind.mpr ((Act.meets_pure _).mpr
        (Act.meets_bind.mpr (surrender_meets fun _ => ?_)))
      exact Adapts.regrown hlt (by rintro ⟨⟩)
    · rename_i hno
      have hqueued : w.queued = [] := by
        rw [Bool.and_eq_true, decide_eq_true_eq, not_and, Decidable.not_not] at hno
        cases hheld : w.held with
        | none => exact h.queued_of_held hheld
        | some length => exact hno (by rw [hheld]; rfl)
      refine Act.meets_bind.mpr ((Act.meets_pure _).mpr
        (Act.meets_bind.mpr (surrender_meets fun _ => ?_)))
      have hregrown : w.Adapts size' pool'
          { w with size := size', pool := pool', held := none, spare } :=
        .regrown hlt fun _ => hqueued
      rwa [hqueued] at hregrown

/-! ## Operations -/

/-- An operation on a writer; it may draw a source of type `ν`. -/
inductive Op (ν : Type) where
  | write (b : Bytes)
  | writeText (s : String)
  | writeByte (b : UInt8)
  | writeRune (c : Char)
  | readFrom (s : ν)
  | flush
  | plainWrite (b : Bytes)
  | plainFlush
  | adapt (size : Nat) (pool : PoolId)
  | intoSink

/-- What came of an operation. -/
inductive Outcome (ν : Type) where
  | receipt (receipt : Receipt)
  | byte (result : Except Error Unit)
  | rune (result : Except Error Nat)
  /-- The source is returned with what it was asked and what it handed out. -/
  | drew (receipt : Receipt) (s : Traced ν)
  | flushed (result : Except Error Unit)
  | plain (result : Except IoError Nat)
  | plainFlushed (result : Except IoError Unit)
  | done
  /-- The writer was not given up. -/
  | refused (e : Error)
  | returned
  /-- There is no writer any more. -/
  | nothing

/-- A run has a writer until that is given up for its sink. -/
inductive Stage (κ : Type) where
  | writing (w : Writer κ)
  | ended (k : κ)

/-- Perform an operation. -/
def perform [ByteSource ν] [BulkSink κ] : Op ν → Stage κ → Act (Outcome ν × Stage κ)
  | _, .ended k => return (.nothing, .ended k)
  | .write b, .writing w => return (← w.write b).map .receipt .writing
  | .writeText s, .writing w => return (← w.writeText s).map .receipt .writing
  | .writeByte b, .writing w => return (← w.writeByte b).map .byte .writing
  | .writeRune c, .writing w => return (← w.writeRune c).map .rune .writing
  | .readFrom s, .writing w => do
    let (receipt, w, s) ← w.readFrom (Traced.start s)
    return (.drew receipt s, .writing w)
  | .flush, .writing w => return (← w.flush).map .flushed .writing
  | .plainWrite b, .writing w => return (← w.plainWrite b).map .plain .writing
  | .plainFlush, .writing w => return (← w.plainFlush).map .plainFlushed .writing
  | .adapt size pool, .writing w => return (.done, .writing (← w.adapt size pool))
  | .intoSink, .writing w => do
    match (← w.intoSink) with
    | .error (e, w) => return (.refused e, .writing w)
    | .ok k => return (.returned, .ended k)

/-- What a plain write reports. -/
def plainCount (receipt : Receipt) : Except IoError Nat :=
  if 0 < receipt.count then .ok receipt.count
  else match receipt.fault with
    | none => .ok 0
    | some e => .error (e.toIo true)

/-- What operations do. -/
inductive Performs [ByteSource ν] [BulkSink κ] [Keeping κ] (w : Writer κ) :
    Op ν → Outcome ν → Stage κ → Prop
  | write {b : Bytes} {ss : List Send} {receipt : Receipt} {w' : Writer κ}
      (h : w.Writes b ss receipt w') : Performs w (.write b) (.receipt receipt) (.writing w')
  | writeText {s : String} {ss : List Send} {receipt : Receipt} {w' : Writer κ}
      (h : w.Writes (Bytes.ofText s) ss receipt w') :
      Performs w (.writeText s) (.receipt receipt) (.writing w')
  | writeByte {b : UInt8} {ss : List Send} {w' : Writer κ} (h : w.Puts 1 [b] ss w') :
      Performs w (.writeByte b) (.byte (w'.outcome ())) (.writing w')
  | writeRune {c : Char} {ss : List Send} {w' : Writer κ} (h : w.PutsRune c ss w') :
      Performs w (.writeRune c) (.rune (w'.outcome (Rune.encode c).length)) (.writing w')
  | readFrom {s : ν} {t : Traced ν} {ds : List Draw} {receipt : Receipt} {w' : Writer κ}
      (h : w.ReadsFrom (Traced.start s) ds receipt w' t) :
      Performs w (.readFrom s) (.drew receipt t) (.writing w')
  | flush {ss : List Send} {w' : Writer κ} (h : w.FlushesOut ss w') :
      Performs w .flush (.flushed (w'.outcome ())) (.writing w')
  | plainWrite {b : Bytes} {ss : List Send} {receipt : Receipt} {w' : Writer κ}
      (h : w.Writes b ss receipt w') :
      Performs w (.plainWrite b) (.plain (plainCount receipt)) (.writing w')
  | plainFlush {ss : List Send} {w' : Writer κ} (h : w.FlushesOut ss w') :
      Performs w .plainFlush (.plainFlushed (intoIo true (w'.outcome ()))) (.writing w')
  | adapt {size : Nat} {pool : PoolId} {w' : Writer κ} (h : w.Adapts size pool w') :
      Performs w (.adapt size pool) .done (.writing w')
  | refused {ss : List Send} {w' : Writer κ} {e : Error} (h : w.FlushesOut ss w')
      (he : w'.fault = some e) : Performs w .intoSink (.refused e) (.writing w')
  | returned {ss : List Send} {w' : Writer κ} (h : w.FlushesOut ss w')
      (hnone : w'.fault = none) : Performs w .intoSink .returned (.ended w'.sink)

variable [ByteSource ν] [BulkSink κ] [Keeping κ]

/-- The writer of a stage, if there is one, is well-formed. -/
def Stage.WF : Stage κ → Prop
  | .writing w => w.WF
  | .ended _ => True

theorem Performs.wf {w : Writer κ} {op : Op ν} {outcome : Outcome ν} {st : Stage κ}
    (hp : w.Performs op outcome st) (h : w.WF) : st.WF := by
  cases hp with
  | write hw => exact hw.wf h
  | writeText hw => exact hw.wf h
  | writeByte hw => exact hw.wf (Nat.le_refl 1) h
  | writeRune hw => exact hw.wf h
  | readFrom hd => exact hd.wf h
  | flush hf => exact hf.wf h
  | plainWrite hw => exact hw.wf h
  | plainFlush hf => exact hf.wf h
  | adapt ha => exact ha.wf h
  | refused hf => exact hf.wf h
  | returned => trivial

theorem plainWrite_meets [HonestSink H κ] (b : Bytes) (w : Writer κ) :
    Act.Meets H (w.plainWrite b) sh fun (result, w') _ => ∃ ss receipt,
      w.Writes b ss receipt w' ∧ result = plainCount receipt := by
  refine Act.meets_bind.mpr ((write_meets b w).imp ?_)
  rintro ⟨receipt, w'⟩ sh' ⟨ss, hw⟩
  dsimp only
  split
  · rename_i hpos
    exact ⟨ss, receipt, hw, (if_pos hpos).symm⟩
  · rename_i h0
    split
    · rename_i hnone
      exact ⟨ss, receipt, hw, by rw [plainCount, if_neg h0, hnone]⟩
    · rename_i e he
      exact ⟨ss, receipt, hw, by rw [plainCount, if_neg h0, he]⟩

theorem plainFlush_meets [HonestSink H κ] (w : Writer κ) :
    Act.Meets H w.plainFlush sh fun (result, w') _ => ∃ ss,
      w.FlushesOut ss w' ∧ result = intoIo true (w'.outcome ()) := by
  refine Act.meets_bind.mpr ((flush_meets w).imp ?_)
  rintro ⟨result, w'⟩ sh' ⟨ss, hf, rfl⟩
  exact ⟨ss, hf, rfl⟩

/-- Giving the writer up for its sink, which fails if passing the queue on does. -/
theorem intoSink_meets [HonestSink H κ] (w : Writer κ) :
    Act.Meets H w.intoSink sh fun result _ => ∃ ss w', w.FlushesOut ss w' ∧
      ((w'.fault = none ∧ result = .ok w'.sink) ∨
        ∃ e, w'.fault = some e ∧ result = .error (e, w')) := by
  refine Act.meets_bind.mpr ((flush_meets w).imp ?_)
  rintro ⟨result, w'⟩ sh' ⟨ss, hf, rfl⟩
  unfold outcome
  dsimp only
  cases hfault : w'.fault with
  | some e => exact ⟨ss, w', hf, .inr ⟨e, hfault, rfl⟩⟩
  | none => exact Act.meets_bind.mpr (surrender_meets fun _ => ⟨ss, w', hf, .inl ⟨hfault, rfl⟩⟩)

/-- What an operation does, given what drawing a source does if it is that one. -/
theorem perform_meets_of_readFrom [HonestSink H κ] (op : Op ν) {w : Writer κ} (h : w.WF)
    (hread : ∀ s, op = .readFrom s →
      Act.Meets H (w.readFrom (Traced.start s)) sh fun (receipt, w', t) _ => ∃ ds,
        w.ReadsFrom (Traced.start s) ds receipt w' t) :
    Act.Meets H (perform op (.writing w)) sh fun (outcome, st) _ => w.Performs op outcome st := by
  cases op with
  | write b =>
    refine Act.meets_bind.mpr ((write_meets b w).imp ?_)
    rintro ⟨receipt, w'⟩ sh' ⟨ss, hw⟩
    exact .write hw
  | writeText s =>
    refine Act.meets_bind.mpr ((write_meets _ w).imp ?_)
    rintro ⟨receipt, w'⟩ sh' ⟨ss, hw⟩
    exact .writeText hw
  | writeByte b =>
    refine Act.meets_bind.mpr ((writeByte_meets h b).imp ?_)
    rintro ⟨result, w'⟩ sh' ⟨ss, hw, rfl⟩
    exact .writeByte hw
  | writeRune c =>
    refine Act.meets_bind.mpr ((writeRune_meets h c).imp ?_)
    rintro ⟨result, w'⟩ sh' ⟨ss, hw, rfl⟩
    exact .writeRune hw
  | readFrom s =>
    refine Act.meets_bind.mpr ((hread s rfl).imp ?_)
    rintro ⟨receipt, w', t⟩ sh' ⟨ds, hd⟩
    exact .readFrom hd
  | flush =>
    refine Act.meets_bind.mpr ((flush_meets w).imp ?_)
    rintro ⟨result, w'⟩ sh' ⟨ss, hf, rfl⟩
    exact .flush hf
  | plainWrite b =>
    refine Act.meets_bind.mpr ((plainWrite_meets b w).imp ?_)
    rintro ⟨result, w'⟩ sh' ⟨ss, receipt, hw, rfl⟩
    exact .plainWrite hw
  | plainFlush =>
    refine Act.meets_bind.mpr ((plainFlush_meets w).imp ?_)
    rintro ⟨result, w'⟩ sh' ⟨ss, hf, rfl⟩
    exact .plainFlush hf
  | adapt size pool =>
    refine Act.meets_bind.mpr ((adapt_meets h size pool).imp ?_)
    intro w' sh' ha
    exact .adapt ha
  | intoSink =>
    refine Act.meets_bind.mpr ((intoSink_meets w).imp ?_)
    rintro result sh' ⟨ss, w', hf, ⟨hnone, rfl⟩ | ⟨e, he, rfl⟩⟩
    · exact .returned hf hnone
    · exact .refused hf he

/-- **What an operation does**, whichever it is. -/
theorem perform_meets [HonestSource H ν] [HonestSink H κ] [HonestBulkSink H κ]
    (hH : H .exhausted) (op : Op ν) {w : Writer κ} (h : w.WF) :
    Act.Meets H (perform op (.writing w)) sh fun (outcome, st) _ => w.Performs op outcome st :=
  perform_meets_of_readFrom op h fun s _ => readFrom_meets hH w (Traced.start s)

end Writer

end BufferedStream
