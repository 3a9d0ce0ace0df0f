import BufferedStream.Endpoint.Sink
import BufferedStream.Endpoint.Source
import BufferedStream.Proofs.Safety.Transfer
import BufferedStream.Proofs.Safety.Writer

/-!
# Endpoints of any make answer for what they report

Basic endpoints note their calls, and scripted ones may report whatever they like;
readers and writers in the place of a source or a sink report no more than they
were offered.  So sources and sinks of any make are answering ones, to any height.
The one thing that is not allowed is a scripted transfer of everything at once: the
script makes a call of its own there and does not look at what is reported.

* `Endpoint.Source`, `Endpoint.Sink` — answer, and so do their bulk transfers.
-/

namespace BufferedStream.Endpoint

open Act (Upholds Answers)

variable {σ κ : Type}

/-! ## Plain inputs and outputs that follow a script -/

instance : AnsweringInput Script.Input where
  read_answers i room := by
    show Answers (do
      Act.note (.input room.size (((i.read room.size).1.map Grant.count).mapError IoError.kind))
      return i.read room.size) _ _ _
    generalize i.read room.size = answer
    obtain ⟨result, i⟩ := answer
    refine Act.answers_note trivial (fun hfair => ?_) ?_
    · cases result with
      | error cause => rfl
      | ok g => exact decide_eq_true (hfair g rfl)
    · rintro hover b ⟨g, rfl, hb⟩
      have hlt : room.size < g.count := Nat.lt_of_not_le fun hle => hover (forall_eq_ok hle)
      rcases hb with rfl | rfl
      · exact .input hlt
      · exact .inputBulk hlt

instance : AnsweringOutput Script.Output where
  write_answers o b := by
    show Answers (do
      Act.note (.output b ((o.write b).1.mapError IoError.kind))
      return o.write b) _ _ _
    generalize o.write b = answer
    obtain ⟨result, o⟩ := answer
    refine Act.answers_note trivial (fun hfair => ?_) ?_
    · cases result with
      | error cause => rfl
      | ok n => exact decide_eq_true (hfair n rfl)
    · rintro hover br ⟨n, rfl, hbr⟩
      have hlt : b.length < n := Nat.lt_of_not_le fun hle => hover (forall_eq_ok hle)
      rcases hbr with ⟨earlier, rfl⟩ | rfl
      · exact .output hlt
      · exact .outputBulk hlt

/-! ## Sources -/

namespace BasicSource

/-- A read that is noted answers for what it reports. -/
theorem noteRead_answers {α : Type} (post : α → Prop) (offered : Nat) (g : Reading) {a : α}
    (ha : post a) :
    Answers (noteRead offered g a) (fun (g, _) => g.count ≤ offered)
      (fun (g, _) => g.Tells offered) fun (_, a) => post a := by
  refine Act.answers_note ha (fun hle => decide_eq_true hle) ?_
  rintro hover b (rfl | rfl)
  · exact .read (Nat.lt_of_not_le hover)
  · exact .readBulk (Nat.lt_of_not_le hover)

/-- A script lays down no bulk transfer. -/
def Sound : BasicSource → Prop
  | .script s => s.bulk = []
  | _ => True

theorem bulk_read (s : Script.Source) (n : Nat) : (s.read n).2.bulk = s.bulk := by
  unfold Script.Source.read
  split
  · rfl
  · split <;> rfl
  · rfl
  · rfl

instance : AnsweringSource BasicSource where
  Sound := Sound
  read_answers {s} room hs := by
    cases s with
    | memory m => exact noteRead_answers Sound room.size _ trivial
    | script s =>
      have hbulk : (s.read room.size).2.bulk = [] := (bulk_read s room.size).trans hs
      exact noteRead_answers Sound room.size _ hbulk
    | plain s =>
      refine (AnsweringSource.read_answers room trivial).bind_answers ?_ ?_
      · rintro ⟨g, s⟩ hle -
        exact (Act.upholds_pure ⟨hle, trivial⟩).answers
      · rintro ⟨g, s⟩ hover -
        exact ⟨_, rfl, trivial, hover, fun b hb => hb⟩

theorem noteWriteTo_upholds {α β : Type} {P : α → Prop} {Q : β → Prop}
    (receipt : Option Receipt) {a : α} {b : β} (ha : P a) (hb : Q b) :
    (noteWriteTo receipt (a, b)).Upholds fun (_, a, b) => P a ∧ Q b :=
  (Act.upholds_note rfl).bind fun _ _ => Act.upholds_pure ⟨ha, hb⟩

instance [ByteSink κ] [AnsweringSink κ] : AnsweringTransfer BasicSource κ where
  writeTo_upholds {s k} hs hk := by
    cases s with
    | memory m =>
      refine (AnsweringTransfer.writeTo_upholds (s := m) trivial hk).bind ?_
      rintro ⟨receipt, m, k⟩ ⟨-, hk⟩
      exact noteWriteTo_upholds (P := Sound) receipt trivial hk
    | script s =>
      have hbulk : s.bulk = [] := hs
      have hnothing : (s.writeTo k).Upholds fun (_, s', k') => s' = s ∧ k' = k := by
        rw [Script.Source.writeTo, hbulk]
        exact Act.upholds_pure ⟨rfl, rfl⟩
      refine hnothing.bind ?_
      rintro ⟨receipt, s, k⟩ ⟨rfl, rfl⟩
      exact noteWriteTo_upholds (P := Sound) receipt hs hk
    | plain s => exact noteWriteTo_upholds (P := Sound) none trivial hk

end BasicSource

section StackedReader

variable [BulkSource σ] [AnsweringSource σ]

instance : AnsweringSource (StackedReader σ) where
  Sound s := s.reader.Secure
  read_answers {s} room h := by
    refine Upholds.answers ((Reader.read_safe room h).upholds.bind ?_)
    rintro ⟨g, r⟩ ⟨hle, h'⟩
    exact Act.upholds_pure ⟨hle, h'⟩

instance [ByteSink κ] [AnsweringSink κ] [AnsweringTransfer σ κ] :
    AnsweringTransfer (StackedReader σ) κ where
  writeTo_upholds h hk := by
    refine (Reader.writeTo_safe h hk).upholds.bind ?_
    rintro ⟨receipt, r, k⟩ ⟨h', hk'⟩
    exact BasicSource.noteWriteTo_upholds (P := AnsweringSource.Sound) (some receipt) h' hk'

end StackedReader

namespace SourceStack

/-- How a stack of a given depth answers. -/
@[reducible] def answering : (depth : Nat) → AnsweringSource (SourceStack depth)
  | 0 => inferInstanceAs (AnsweringSource BasicSource)
  | depth + 1 =>
    have := answering depth
    inferInstanceAs (AnsweringSource (StackedReader (SourceStack depth)))

instance (depth : Nat) : AnsweringSource (SourceStack depth) := answering depth

/-- By recursion on the depth. -/
instance answeringTransfer [ByteSink κ] [AnsweringSink κ] :
    (depth : Nat) → AnsweringTransfer (SourceStack depth) κ
  | 0 => inferInstanceAs (AnsweringTransfer BasicSource κ)
  | depth + 1 =>
    have := answeringTransfer depth
    inferInstanceAs (AnsweringTransfer (StackedReader (SourceStack depth)) κ)

end SourceStack

instance : AnsweringSource Source where
  Sound s := AnsweringSource.Sound s.stack
  read_answers room hs := by
    refine (AnsweringSource.read_answers room hs).bind_answers ?_ ?_
    · rintro ⟨g, stack⟩ hle hs
      exact (Act.upholds_pure ⟨hle, hs⟩).answers
    · rintro ⟨g, stack⟩ hover hs
      exact ⟨_, rfl, hs, hover, fun b hb => hb⟩

instance [ByteSink κ] [AnsweringSink κ] : AnsweringTransfer Source κ where
  writeTo_upholds {s _} hs hk := by
    have hstack : AnsweringSource.Sound s.stack := hs
    refine (AnsweringTransfer.writeTo_upholds hstack hk).bind ?_
    rintro ⟨receipt, stack, k⟩ ⟨hs, hk⟩
    exact Act.upholds_pure ⟨hs, hk⟩

/-! ## Sinks -/

namespace BasicSink

/-- A write that is noted answers for what it reports. -/
theorem noteWrite_answers {α : Type} (post : α → Prop) (offered : Bytes) (receipt : Receipt)
    {a : α} (ha : post a) :
    Answers (noteWrite offered receipt a) (fun (receipt, _) => receipt.count ≤ offered.length)
      (fun (receipt, _) => receipt.Tells offered.length) fun (_, a) => post a := by
  refine Act.answers_note ha (fun hle => decide_eq_true hle) ?_
  rintro hover b (rfl | rfl)
  · exact .write (Nat.lt_of_not_le hover)
  · exact .writeBulk (Nat.lt_of_not_le hover)

/-- A script lays down no bulk intake. -/
def Sound : BasicSink → Prop
  | .script k => k.bulk = []
  | _ => True

instance : AnsweringSink BasicSink where
  Sound := Sound
  write_answers {k} b hk := by
    cases k with
    | memory m => exact noteWrite_answers Sound b _ trivial
    | script k => exact noteWrite_answers Sound b _ hk
    | plain k =>
      refine (AnsweringSink.write_answers b trivial).bind_answers ?_ ?_
      · rintro ⟨receipt, k⟩ hle -
        exact (Act.upholds_pure ⟨hle, trivial⟩).answers
      · rintro ⟨receipt, k⟩ hover -
        exact ⟨_, rfl, trivial, hover, fun b hb => hb⟩

theorem noteReadFrom_upholds {α β : Type} {P : α → Prop} {Q : β → Prop}
    (receipt : Option Receipt) {a : α} {b : β} (ha : P a) (hb : Q b) :
    (noteReadFrom receipt (a, b)).Upholds fun (_, a, b) => P a ∧ Q b :=
  (Act.upholds_note rfl).bind fun _ _ => Act.upholds_pure ⟨ha, hb⟩

instance [ByteSource σ] [AnsweringSource σ] : AnsweringIntake BasicSink σ where
  readFrom_upholds {k s} hk hs := by
    cases k with
    | memory m =>
      refine (AnsweringIntake.readFrom_upholds (k := m) trivial hs).bind ?_
      rintro ⟨receipt, m, s⟩ ⟨-, hs⟩
      exact noteReadFrom_upholds (P := Sound) receipt trivial hs
    | script k =>
      have hbulk : k.bulk = [] := hk
      have hnothing : (k.readFrom s).Upholds fun (_, k', s') => k' = k ∧ s' = s := by
        rw [Script.Sink.readFrom, hbulk]
        exact Act.upholds_pure ⟨rfl, rfl⟩
      refine hnothing.bind ?_
      rintro ⟨receipt, k, s⟩ ⟨rfl, rfl⟩
      exact noteReadFrom_upholds (P := Sound) receipt hk hs
    | plain k => exact noteReadFrom_upholds (P := Sound) none trivial hs

end BasicSink

section StackedWriter

variable [BulkSink κ] [AnsweringSink κ]

instance : AnsweringSink (StackedWriter κ) where
  Sound k := k.writer.Secure
  write_answers {k} b h := by
    refine Upholds.answers ((Writer.write_safe b h).upholds.bind ?_)
    rintro ⟨receipt, w⟩ ⟨hle, h'⟩
    exact Act.upholds_pure ⟨hle, h'⟩

instance [ByteSource σ] [AnsweringSource σ] [AnsweringIntake κ σ] :
    AnsweringIntake (StackedWriter κ) σ where
  readFrom_upholds h hs := by
    refine (Writer.readFrom_safe h hs).upholds.bind ?_
    rintro ⟨receipt, w, s⟩ ⟨h', hs'⟩
    exact BasicSink.noteReadFrom_upholds (P := AnsweringSink.Sound) (some receipt) h' hs'

end StackedWriter

namespace SinkStack

/-- How a stack of a given depth answers. -/
@[reducible] def answering : (depth : Nat) → AnsweringSink (SinkStack depth)
  | 0 => inferInstanceAs (AnsweringSink BasicSink)
  | depth + 1 =>
    have := answering depth
    inferInstanceAs (AnsweringSink (StackedWriter (SinkStack depth)))

instance (depth : Nat) : AnsweringSink (SinkStack depth) := answering depth

/-- By recursion on the depth. -/
instance answeringIntake [ByteSource σ] [AnsweringSource σ] :
    (depth : Nat) → AnsweringIntake (SinkStack depth) σ
  | 0 => inferInstanceAs (AnsweringIntake BasicSink σ)
  | depth + 1 =>
    have := answeringIntake depth
    inferInstanceAs (AnsweringIntake (StackedWriter (SinkStack depth)) σ)

end SinkStack

instance : AnsweringSink Sink where
  Sound k := AnsweringSink.Sound k.stack
  write_answers b hk := by
    refine (AnsweringSink.write_answers b hk).bind_answers ?_ ?_
    · rintro ⟨receipt, stack⟩ hle hk
      exact (Act.upholds_pure ⟨hle, hk⟩).answers
    · rintro ⟨receipt, stack⟩ hover hk
      exact ⟨_, rfl, hk, hover, fun b hb => hb⟩

instance [ByteSource σ] [AnsweringSource σ] : AnsweringIntake Sink σ where
  readFrom_upholds {k _} hk hs := by
    have hstack : AnsweringSink.Sound k.stack := hk
    refine (AnsweringIntake.readFrom_upholds hstack hs).bind ?_
    rintro ⟨receipt, stack, s⟩ ⟨hk, hs⟩
    exact Act.upholds_pure ⟨hk, hs⟩

end BufferedStream.Endpoint
