import BufferedStream.Proofs.Agree
import BufferedStream.Proofs.Sink
import BufferedStream.Proofs.Stack.Layer
import BufferedStream.Script.Sink

/-!
# Truthful scripts

A scripted source may claim bytes that it never hands out, and a scripted sink
bytes that it was never offered.  One whose script holds no such claim is honest,
whatever else it does (`Script.Truthful`, `Script.TruthfulSink`): it may move any
number of bytes, report errors alone or with bytes, and go on after them.
-/

namespace BufferedStream.Script

/-- The item claims no bytes. -/
def SourceItem.isTruthful : SourceItem → Bool
  | .claim _ => false
  | _ => true

/-- The item reports no full buffer. -/
def SourceItem.isOwn : SourceItem → Bool
  | .piece _ fault => !fault.any Error.bufferFull.same
  | _ => true

/-- A scripted source that claims no bytes. -/
structure Truthful where
  source : Source
  truthful : source.items.all SourceItem.isTruthful = true := by decide

namespace Truthful

/-- What a truthful script hands out is what it reports, and fits; what is left of
it is truthful. -/
theorem read_truthful {s : Source} (h : s.items.all SourceItem.isTruthful = true) (n : Nat) :
    ((s.read n).1.count = (s.read n).1.data.length ∧ (s.read n).1.count ≤ n) ∧
      (s.read n).2.items.all SourceItem.isTruthful = true := by
  obtain ⟨items, bulk⟩ := s
  cases items with
  | nil => exact ⟨⟨rfl, Nat.zero_le _⟩, rfl⟩
  | cons item rest =>
    rw [List.all_cons, Bool.and_eq_true] at h
    cases item with
    | piece data fault =>
      unfold Source.read
      dsimp only
      split
      · rename_i hle
        exact ⟨⟨rfl, hle⟩, h.2⟩
      · exact ⟨⟨rfl, List.length_take_le ..⟩, h.2⟩
    | idle times =>
      refine ⟨⟨rfl, Nat.zero_le _⟩, ?_⟩
      show (idleAgain SourceItem.idle times rest).all SourceItem.isTruthful = true
      unfold idleAgain
      split
      · exact h.2
      · exact h.2
    | claim excess => cases h.1

/-- One read. -/
def read (t : Truthful) (n : Nat) : Reading × Truthful :=
  ((t.source.read n).1, ⟨(t.source.read n).2, (read_truthful t.truthful n).2⟩)

/-- One bulk transfer, as the script has it. -/
def writeTo {κ : Type} [ByteSink κ] (t : Truthful) (k : κ) :
    Act (Option Receipt × Truthful × κ) := do
  match t.source.bulk with
  | [] => return (none, t, k)
  | (data, fault) :: rest =>
    let (receipt, k) ← ByteSink.write k data
    return (some ⟨receipt.count, receipt.fault <|> fault⟩,
      ⟨{ t.source with bulk := rest }, t.truthful⟩, k)

instance : BulkSource Truthful where
  read t room := return t.read room.size
  writeTo t k := t.writeTo k

variable {H : Halt → Prop}

instance : HonestSource H Truthful where
  read_honest t room _ := (read_truthful t.truthful room.size).1

instance : HonestBulkSource H Truthful where
  writeTo_keeps I hwrite t k sh hk := by
    show Act.Meets H (t.writeTo k) sh _
    unfold writeTo
    split
    · exact hk
    · refine Act.meets_bind.mpr ((hwrite k _ sh hk).imp ?_)
      rintro ⟨receipt, k'⟩ sh' ⟨-, hk'⟩
      exact hk'

/-- A script looks at the size of the room at most. -/
instance : BlindSource Truthful where
  Same := Eq
  read_same {t _} room room' ht hroom := by
    subst ht
    show Act.Agree _ (pure (t.read room.size)) (pure (t.read room'.size))
    rw [hroom]
    exact Act.agree_pure ⟨rfl, rfl⟩

instance : BlindBulk Truthful where
  writeTo_same {_ _ _ t _ k k'} ht hk := by
    subst ht
    show Act.Agree _ (t.writeTo k) (t.writeTo k')
    unfold writeTo
    split
    · exact Act.agree_pure ⟨rfl, rfl, hk⟩
    · refine (BlindSink.write_same _ hk).bind ?_
      rintro ⟨receipt, k₁⟩ ⟨_, k₁'⟩ ⟨rfl, hk₁⟩
      exact Act.agree_pure ⟨rfl, rfl, hk₁⟩

/-! ## Scripts without a full buffer -/

/-- An item that does not report a full buffer leaves a script of such items. -/
theorem read_own {s : Source} (h : s.items.all SourceItem.isOwn = true) (n : Nat) :
    (s.read n).1.fault ≠ some .bufferFull ∧
      (s.read n).2.items.all SourceItem.isOwn = true := by
  obtain ⟨items, bulk⟩ := s
  cases items with
  | nil => exact ⟨by rintro ⟨⟩, rfl⟩
  | cons item rest =>
    rw [List.all_cons, Bool.and_eq_true] at h
    cases item with
    | piece data fault =>
      unfold Source.read
      dsimp only
      split
      · refine ⟨?_, h.2⟩
        rintro hfault
        rw [show fault = some .bufferFull from hfault] at h
        cases h.1
      · refine ⟨by rintro ⟨⟩, ?_⟩
        rw [List.all_cons, Bool.and_eq_true]
        exact h
    | idle times =>
      refine ⟨by rintro ⟨⟩, ?_⟩
      show (idleAgain SourceItem.idle times rest).all SourceItem.isOwn = true
      unfold idleAgain
      split
      · exact h.2
      · exact h.2
    | claim excess => exact ⟨by rintro ⟨⟩, h.2⟩

/-- By induction on the calls: the script stays free of full buffers. -/
theorem neverFull (t : Truthful) (h : t.source.items.all SourceItem.isOwn = true) :
    NeverFull t := by
  intro ds t' hcalls
  induction hcalls with
  | nil => simp
  | cons hreads _ ih =>
    obtain ⟨room, sh, sh', -, hread⟩ := hreads
    cases hread
    obtain ⟨hfault, hrest⟩ := read_own h room.size
    exact List.forall_mem_cons.mpr ⟨hfault, ih hrest⟩

end Truthful

/-! ## Steady scripts -/

/-- The bytes that an item hands out. -/
def SourceItem.data : SourceItem → Bytes
  | .piece data _ => data
  | _ => []

/-- The pieces are not empty, and come without an error; the last may come with the
end. -/
def isSteady : List SourceItem → Bool
  | [] => true
  | .piece data fault :: rest =>
    !data.isEmpty && (if rest.isEmpty then fault.all Error.isEof else fault.isNone) &&
      isSteady rest
  | _ => false

/-- A scripted source that hands out finitely many bytes and then ends. -/
structure Steady where
  source : Source
  steady : isSteady source.items = true := by decide

namespace Steady

/-- The bytes that a script has left. -/
def left (items : List SourceItem) : Bytes := items.flatMap SourceItem.data

/-- What a steady script answers, and what is left of it. -/
structure Serves (s : Source) (n : Nat) (g : Reading) (s' : Source) : Prop where
  steady : isSteady s'.items = true
  count_eq : g.count = g.data.length
  count_le : g.count ≤ n
  left_eq : left s.items = g.data ++ left s'.items
  fault : g.fault = none ∨ (g.fault = some .eof ∧ left s'.items = [])
  brings : 0 < n → g.data = [] → g.fault = some .eof

theorem serves {s : Source} (h : isSteady s.items = true) (n : Nat) :
    Serves s n (s.read n).1 (s.read n).2 := by
  obtain ⟨items, bulk⟩ := s
  cases items with
  | nil =>
    exact
      { steady := rfl
        count_eq := rfl
        count_le := Nat.zero_le _
        left_eq := rfl
        fault := .inr ⟨rfl, rfl⟩
        brings := fun _ _ => rfl }
  | cons item rest =>
    cases item with
    | piece data fault =>
      simp only [isSteady, Bool.and_eq_true, Bool.not_eq_true', List.isEmpty_eq_false_iff] at h
      obtain ⟨⟨hne, hfault⟩, hrest⟩ := h
      have hpos := List.length_pos_iff.mpr hne
      unfold Source.read
      dsimp only
      split
      · rename_i hle
        refine ⟨hrest, rfl, hle, rfl, ?_, fun _ hdata => absurd hdata hne⟩
        show fault = none ∨ fault = some .eof ∧ left rest = []
        split at hfault
        · rename_i hlast
          cases fault with
          | none => exact .inl rfl
          | some e =>
            rw [List.isEmpty_iff.mp hlast]
            exact .inr ⟨Reader.eq_eof_of_isEof hfault, rfl⟩
        · exact .inl (Option.isNone_iff_eq_none.mp hfault)
      · rename_i hlong
        have hlong := Nat.lt_of_not_le hlong
        refine ⟨?_, rfl, List.length_take_le .., ?_, .inl rfl, fun hn hdata => ?_⟩
        · simp only [isSteady, Bool.and_eq_true, Bool.not_eq_true', List.isEmpty_eq_false_iff]
          refine ⟨⟨List.ne_nil_of_length_pos ?_, hfault⟩, hrest⟩
          rw [List.length_drop]
          omega
        · show data ++ left rest = data.take n ++ (data.drop n ++ left rest)
          rw [← List.append_assoc, List.take_append_drop]
        · rcases List.take_eq_nil_iff.mp hdata with h0 | hnil
          · omega
          · exact absurd hnil hne
    | idle times => cases h
    | claim excess => cases h

instance : ByteSource Steady where
  read t room :=
    return ((t.source.read room.size).1,
      ⟨(t.source.read room.size).2, (serves t.steady room.size).steady⟩)

theorem serves_of_reads {t t' : Steady} {n : Nat} {g : Reading} (h : ByteSource.Reads t n g t') :
    Serves t.source n g t'.source := by
  obtain ⟨room, sh, sh', rfl, hread⟩ := h
  cases hread
  exact serves t.steady room.size

instance : FiniteSource Steady where
  read_honest t room _ :=
    ⟨(serves t.steady room.size).count_eq, (serves t.steady room.size).count_le⟩
  remaining t := left t.source.items
  remaining_of_reads h := (serves_of_reads h).left_eq
  fault_of_reads h := (serves_of_reads h).fault
  brings_of_reads h := (serves_of_reads h).brings

end Steady

/-! ## Sinks -/

/-- The item claims no bytes. -/
def SinkItem.isTruthful {ε : Type} : SinkItem ε → Bool
  | .claim _ => false
  | _ => true

/-- A scripted sink that claims no bytes. -/
structure TruthfulSink where
  sink : Sink
  truthful : sink.items.all SinkItem.isTruthful = true := by decide

namespace TruthfulSink

/-- What a truthful script takes stands in front of what it was offered, and is
what it reports; what is left of it is truthful. -/
theorem serve_truthful {ε : Type} {items : List (SinkItem ε)}
    (h : items.all SinkItem.isTruthful = true) (b : Bytes) :
    ((SinkItem.serve b items).2.1 ≤ b.length ∧
        (SinkItem.serve b items).1 = b.take (SinkItem.serve b items).2.1) ∧
      (SinkItem.serve b items).2.2.2.all SinkItem.isTruthful = true := by
  cases items with
  | nil => exact ⟨⟨Nat.le_refl _, List.take_length.symm⟩, rfl⟩
  | cons item rest =>
    rw [List.all_cons, Bool.and_eq_true] at h
    cases item with
    | all times =>
      refine ⟨⟨Nat.le_refl _, List.take_length.symm⟩, ?_⟩
      show (idleAgain SinkItem.all times rest).all SinkItem.isTruthful = true
      unfold idleAgain
      split
      · exact h.2
      · exact h.2
    | take limit fault => exact ⟨⟨Nat.min_le_right .., List.take_eq_take_min⟩, h.2⟩
    | claim excess => cases h.1

instance : ByteSink TruthfulSink where
  write t b := return ((t.sink.write b).1,
    ⟨(t.sink.write b).2, (serve_truthful t.truthful b).2⟩)

instance : Keeping TruthfulSink := ⟨fun t => t.sink.data⟩

instance {H : Halt → Prop} : HonestSink H TruthfulSink where
  write_honest t b _ :=
    ⟨(serve_truthful t.truthful b).1.1,
      congrArg (t.sink.data ++ ·) (serve_truthful t.truthful b).1.2⟩

/-- One bulk intake, as the script has it. -/
def readFrom {σ : Type} [ByteSource σ] (t : TruthfulSink) (s : σ) :
    Act (Option Receipt × TruthfulSink × σ) := do
  match t.sink.bulk with
  | [] => return (none, t, s)
  | (size, fault) :: rest =>
    let (g, s) ← ByteSource.read s { size }
    let fault := match g.fault with
      | none | some .eof => fault
      | some e => some e
    return (some ⟨g.count, fault⟩,
      ⟨{ t.sink with bulk := rest, data := t.sink.data ++ g.bytes.take size }, t.truthful⟩, s)

instance : BulkSink TruthfulSink where
  readFrom t s := t.readFrom s

instance {H : Halt → Prop} : HonestBulkSink H TruthfulSink where
  readFrom_honest t s sh := by
    show Act.Meets H (t.readFrom s) sh _
    unfold readFrom
    split
    · exact ⟨rfl, rfl⟩
    · refine Act.meets_bind.mpr ((meets_read s _ sh).imp ?_)
      rintro ⟨g, s'⟩ sh' ⟨hreads, hcount, hle⟩
      refine ⟨_, .single hreads, ?_, ?_⟩
      · show t.sink.data ++ g.bytes.take _ = t.sink.data ++ drawn [_]
        rw [show g.bytes = g.data from Grant.bytesIn_eq_data hcount [],
          List.take_of_length_le (hcount ▸ hle)]
        simp
      · simp [hcount]

end TruthfulSink

end BufferedStream.Script
