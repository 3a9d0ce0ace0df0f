import BufferedStream.Proofs.Script
import BufferedStream.Proofs.Writer.Dispense

/-!
# Drawing a script, in bulk and by turns

A memory sink draws a source in chunks of its own; a writer that draws it itself offers
the room left in its buffer, and passes the buffer on whenever it is full.  What a
scripted source brings does not depend on the room it is offered, as long as there is
some: it is drawn up to its first error or the first call that hands out nothing.  So
both ways bring the same.

* `Script.intake` — what drawing a script brings, told from its items.
* `Script.Source.read_last`, `Script.Source.read_more` — one call brings the front of it.
* `Script.Truthful.dispenses_script` — so the room does not matter.
* `Writer.readFrom_brings_in_bulk`, `Writer.readFrom_brings_by_turns` — both ways bring all of it.
* `Writer.readFrom_flush_agree` — so they agree.
-/

namespace BufferedStream

open Keeping (kept)

namespace Script

/-! ## What drawing a script brings -/

/-- What drawing a script brings: the bytes, the error that ends them, if one does, and
the items left. -/
structure Intake where
  bytes : Bytes
  fault : Option Error
  left : List SourceItem

/-- A script is drawn up to its first error or the first call that hands out nothing. -/
def intake : List SourceItem → Intake
  | [] => ⟨[], some .eof, []⟩
  | .piece data fault :: rest =>
    if data = [] ∨ fault.isSome = true then ⟨data, fault, rest⟩
    else { intake rest with bytes := data ++ (intake rest).bytes }
  | .idle times :: rest => ⟨[], none, idleAgain .idle times rest⟩
  | .claim _ :: rest => ⟨[], none, rest⟩

namespace Source

/-- What drawing a source brings. -/
def intake (s : Source) : Intake := Script.intake s.items

/-- The source after it was drawn. -/
def drained (s : Source) : Source := { s with items := s.intake.left }

variable {s : Source} {n : Nat}

/-- What one call on a script with room for `n` bytes brings: the last of the intake, or
some bytes in front of an intake that is left. -/
theorem read_brings (h : s.items.all SourceItem.isTruthful = true) (hpos : 0 < n) :
    (Ends (s.read n).1 ∧ s.intake = ⟨(s.read n).1.data, (s.read n).1.fault, (s.read n).2.items⟩) ∨
      (¬ Ends (s.read n).1 ∧
        s.intake = { (s.read n).2.intake with
          bytes := (s.read n).1.data ++ (s.read n).2.intake.bytes }) := by
  obtain ⟨items, bulk⟩ := s
  cases items with
  | nil => exact .inl ⟨.inl rfl, rfl⟩
  | cons item rest =>
    cases item with
    | idle times => exact .inl ⟨.inl rfl, rfl⟩
    | claim excess => cases h
    | piece data fault =>
      unfold read Source.intake
      dsimp only
      split
      · -- the piece is handed out whole
        by_cases hends : data = [] ∨ fault.isSome = true
        · refine .inl ⟨hends.imp_left fun hnil => ?_, ?_⟩
          · show data.length = 0
            rw [hnil]
            rfl
          · rw [Script.intake, if_pos hends]
            rfl
        · refine .inr ⟨fun h => hends (h.imp_left List.eq_nil_of_length_eq_zero), ?_⟩
          rw [Script.intake, if_neg hends]
          rfl
      · -- a part of it is, and its error stays behind with the rest
        rename_i hlong
        have hlong := Nat.lt_of_not_le hlong
        refine .inr ⟨?_, ?_⟩
        · rintro (h0 | hsome)
          · have h0 : (data.take n).length = 0 := h0
            rw [List.length_take] at h0
            omega
          · cases hsome
        · have hdata : data ≠ [] := List.ne_nil_of_length_pos (by omega)
          have hrest : data.drop n ≠ [] := by
            rw [Ne, List.drop_eq_nil_iff]
            omega
          simp only [Script.intake, hdata, hrest, false_or]
          split
          · simp [Reading.ofBytes]
          · simp [Reading.ofBytes, ← List.append_assoc]

theorem read_bulk (s : Source) (n : Nat) : (s.read n).2.bulk = s.bulk := by
  unfold read
  split
  · rfl
  · split <;> rfl
  · rfl
  · rfl

/-- A call that ends the drawing brings all there was to bring. -/
theorem read_last (h : s.items.all SourceItem.isTruthful = true) (hpos : 0 < n)
    (hends : Ends (s.read n).1) :
    s.intake.bytes = (s.read n).1.data ∧ s.intake.fault = (s.read n).1.fault ∧
      (s.read n).2 = s.drained := by
  rcases read_brings h hpos with ⟨-, hintake⟩ | ⟨hgoes, -⟩
  · refine ⟨by rw [hintake], by rw [hintake], ?_⟩
    rw [drained, hintake, ← s.read_bulk n]
  · exact absurd hends hgoes

/-- Any other call brings some of it, and leaves the rest. -/
theorem read_more (h : s.items.all SourceItem.isTruthful = true) (hpos : 0 < n)
    (hgoes : ¬ Ends (s.read n).1) :
    s.intake.bytes = (s.read n).1.data ++ (s.read n).2.intake.bytes ∧
      s.intake.fault = (s.read n).2.intake.fault ∧ (s.read n).2.drained = s.drained := by
  rcases read_brings h hpos with ⟨hends, -⟩ | ⟨-, hintake⟩
  · exact absurd hends hgoes
  · refine ⟨by rw [hintake], by rw [hintake], ?_⟩
    rw [drained, drained, hintake, s.read_bulk n]

end Source

end Script

open Script (Truthful unlessEof)

namespace Script.Truthful

/-- What a truthful script answers is what the script has it answer. -/
theorem eq_of_reads {t t' : Truthful} {n : Nat} {g : Reading} (h : ByteSource.Reads t n g t') :
    g = (t.source.read n).1 ∧ t'.source = (t.source.read n).2 := by
  obtain ⟨room, sh, sh', rfl, hread⟩ := h
  cases hread
  exact ⟨rfl, rfl⟩

/-- A truthful script has so many bytes and this error to bring, and would be left so. -/
def Intends (left : Source) (t : Truthful) (b : Bytes) (fault : Option Error) : Prop :=
  t.source.intake.bytes = b ∧ t.source.intake.fault = fault ∧ t.source.drained = left

/-- A truthful script brings its intake, whatever the room. -/
theorem dispenses_script (left : Source) :
    Dispenses (Intends left) fun t => t.source = left := by
  rintro t t₁ b fault n g ⟨rfl, rfl, rfl⟩ hreads hpos
  obtain ⟨rfl, hsource⟩ := eq_of_reads hreads
  by_cases hends : Source.Ends (t.source.read n).1
  · obtain ⟨hbytes, hfault, hleft⟩ := Source.read_last t.truthful hpos hends
    exact .inl ⟨hends, hbytes, hfault, hsource.trans hleft⟩
  · obtain ⟨hbytes, hfault, hleft⟩ := Source.read_more t.truthful hpos hends
    rw [← hsource] at hbytes hfault hleft
    exact .inr ⟨hends, _, hbytes, rfl, hfault.symm, hleft⟩

theorem intends_intake (t : Truthful) :
    Intends t.source.drained t t.source.intake.bytes t.source.intake.fault := ⟨rfl, rfl, rfl⟩

end Script.Truthful

namespace Writer

variable {κ : Type} [BulkSink κ] [Keeping κ] {w : Writer κ} {sh : Shared}

/-! ## Both ways -/

/-- What came of drawing a script into a writer: the count and the error are reported, the
writer has not failed and answers for the bytes, and the script is left behind them. -/
structure Brings (w : Writer κ) (t : Truthful) (receipt : Receipt) (w' : Writer κ)
    (t' : Truthful) : Prop where
  receipt_eq : receipt = ⟨t.source.intake.bytes.length, unlessEof t.source.intake.fault⟩
  fault : w'.fault = none
  holds_eq : w'.holds = w.holds ++ t.source.intake.bytes
  source_eq : t'.source = t.source.drained

/-- With nothing queued a memory sink draws the script itself. -/
theorem readFrom_brings_in_bulk {w : Writer MemorySink} (hnone : w.fault = none)
    (hqueued : w.queued = []) (t : Truthful)
    (hpatience : t.source.intake.bytes.length < sh.patience) :
    Act.Returns (w.readFrom t) sh fun (receipt, w', t') _ => w.Brings t receipt w' t' := by
  refine (readFrom_in_bulk (Truthful.dispenses_script _) hnone hqueued w.sink.drawsAll
    t.intends_intake hpatience).imp ?_
  rintro ⟨receipt, w', t'⟩ sh' ⟨hreceipt, hnone', hholds, hsource⟩
  exact ⟨hreceipt, hnone', hholds, hsource⟩

variable [Accepting κ]

/-- With bytes queued, or over a sink that leaves it to others, the writer draws the script
by turns. -/
theorem readFrom_brings_by_turns (hw : w.WF) (hnone : w.fault = none)
    (hturns : w.queued ≠ [] ∨ Declines w.sink) (t : Truthful)
    (hpatience : t.source.intake.bytes.length < sh.patience) :
    Act.Returns (w.readFrom t) sh fun (receipt, w', t') _ => w.Brings t receipt w' t' := by
  refine (readFrom_by_turns (Truthful.dispenses_script _) hw hnone hturns t.intends_intake
    hpatience).imp ?_
  rintro ⟨receipt, w', t'⟩ sh' ⟨hreceipt, hnone', hholds, hsource⟩
  exact ⟨hreceipt, hnone', hholds, hsource⟩

/-- Draw a source and flush. -/
def readFromFlush {σ : Type} [ByteSource σ] (w : Writer κ) (s : σ) :
    Act (Receipt × Except Error Unit × Writer κ × σ) := do
  let (receipt, w, s) ← w.readFrom s
  let (result, w) ← w.flush
  return (receipt, result, w, s)

/-- What came of drawing a script into a writer and flushing it: the count and the error are
reported, the flush succeeded, and behind the bytes that were queued before the sink has
just the bytes of the intake. -/
structure Absorbs (w : Writer κ) (t : Truthful) (receipt : Receipt) (result : Except Error Unit)
    (w' : Writer κ) (t' : Truthful) : Prop where
  receipt_eq : receipt = ⟨t.source.intake.bytes.length, unlessEof t.source.intake.fault⟩
  result_eq : result = .ok ()
  kept_eq : kept w'.sink = kept w.sink ++ w.queued ++ t.source.intake.bytes
  queued_eq : w'.queued = []
  source_eq : t'.source = t.source.drained

/-- What a writer answers for is with the sink after the flush. -/
theorem absorbs_of_brings {t : Truthful}
    (h : Act.Returns (w.readFrom t) sh fun (receipt, w', t') _ => w.Brings t receipt w' t') :
    Act.Returns (w.readFromFlush t) sh fun (receipt, result, w', t') _ =>
      w.Absorbs t receipt result w' t' := by
  refine Act.meets_bind.mpr (h.imp ?_)
  rintro ⟨receipt, w₁, t'⟩ sh₁ hb
  refine Act.meets_bind.mpr ((flush_delivers hb.fault).imp ?_)
  rintro ⟨result, w'⟩ sh' ⟨hresult, hkept, hqueued⟩
  exact ⟨hb.receipt_eq, hresult, hkept.trans hb.holds_eq, hqueued, hb.source_eq⟩

/-- **Drawing in bulk and drawing by turns agree.**  A memory sink that draws a script
itself, and a writer with a buffer of any size and any bytes queued that draws it by turns
into a sink that takes everything, report the same count and the same error, append the same
bytes and leave the script in the same place. -/
theorem readFrom_flush_agree (t : Truthful) {w : Writer MemorySink} {v : Writer κ}
    {sh' : Shared} (hwnone : w.fault = none) (hwqueued : w.queued = []) (hv : v.WF)
    (hvnone : v.fault = none) (hturns : v.queued ≠ [] ∨ Declines v.sink)
    (hpatience : t.source.intake.bytes.length < sh.patience)
    (hpatience' : t.source.intake.bytes.length < sh'.patience) :
    Act.Returns (w.readFromFlush t) sh (fun (receipt, result, w', t') _ =>
        w.Absorbs t receipt result w' t') ∧
      Act.Returns (v.readFromFlush t) sh' (fun (receipt, result, v', t') _ =>
        v.Absorbs t receipt result v' t') :=
  ⟨absorbs_of_brings (readFrom_brings_in_bulk hwnone hwqueued t hpatience),
    absorbs_of_brings (readFrom_brings_by_turns hv hvnone hturns t hpatience')⟩

/-- Six bytes, two more that come with an error, and one behind them. -/
def stepped : Truthful where
  source :=
    { items := [.piece [0x61, 0x62, 0x63, 0x64, 0x65, 0x66] none,
        .piece [0x67, 0x68] (some (.io 7 (.bare .connectionReset))), .piece [0x69] none] }

/-- A writer over a memory sink, with nothing queued. -/
def wholesale : Writer MemorySink := { sink := ⟨[0x21]⟩, size := 1, pool := 0 }

/-- A writer with three bytes queued in a buffer of four. -/
def retail : Writer (Unbulked MemorySink) :=
  { sink := ⟨⟨[0x21]⟩⟩, size := 4, pool := 0, queued := [0x31, 0x32, 0x33], held := some 4096 }

theorem readFrom_flush_agree_stepped :
    stepped.source.intake.bytes = [0x61, 0x62, 0x63, 0x64, 0x65, 0x66, 0x67, 0x68] ∧
      stepped.source.drained.items.length = 1 ∧
      (∃ receipt result w' t' sh', wholesale.readFromFlush stepped { pools := [] } =
        .ok (receipt, result, w', t') sh' ∧ wholesale.Absorbs stepped receipt result w' t') ∧
      ∃ receipt result v' t' sh', retail.readFromFlush stepped { pools := [] } =
        .ok (receipt, result, v', t') sh' ∧ retail.Absorbs stepped receipt result v' t' := by
  have hretail : retail.WF := ⟨by decide, by decide, by rintro ⟨⟩⟩
  have hboth : Act.Returns (wholesale.readFromFlush stepped) { pools := [] } _ ∧
      Act.Returns (retail.readFromFlush stepped) { pools := [] } _ :=
    readFrom_flush_agree stepped rfl rfl hretail rfl (.inr fun _ => rfl) (by decide) (by decide)
  obtain ⟨hbulk, hturns⟩ := hboth
  obtain ⟨⟨receipt, result, w', t'⟩, sh₁, hrun, habsorbs⟩ := hbulk.exists_ok
  obtain ⟨⟨receipt', result', v', t₁'⟩, sh₂, hrun', habsorbs'⟩ := hturns.exists_ok
  exact ⟨rfl, rfl, ⟨_, _, _, _, _, hrun, habsorbs⟩, _, _, _, _, _, hrun', habsorbs'⟩

end Writer

end BufferedStream
