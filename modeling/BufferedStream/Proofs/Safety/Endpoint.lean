import BufferedStream.Proofs.Safety.Guard
import BufferedStream.Stream.Memory
import BufferedStream.Stream.Plain

/-!
# Endpoints that answer for what they report

A source may report more bytes than the room it was offered, and a sink more than
the bytes it was offered; the caller has to notice.  An *answering* endpoint
(`AnsweringSource`, `AnsweringSink`) is one whose calls are noted, so that it can
be told afterwards whether the contract was kept: nothing else is asked of what it
reports.  Whoever moves everything at once makes calls of its own, and must notice
an over-report itself (`AnsweringTransfer`, `AnsweringIntake`).

* `AnsweringSource.draw`, `AnsweringSink.offer` — calls followed by a check uphold the contract.
* Memory upholds the contract on both sides, in bulk too.
* The adapters of plain inputs and outputs pass an over-report on as one.
-/

namespace BufferedStream

open Act (Upholds Answers)

/-- What can be said about a read that reported too much. -/
def Reading.Tells (g : Reading) (offered : Nat) (b : Breach) : Prop :=
  b = .sourceOverrun g.count offered ∨ b = .bulkSourceOverrun

/-- What can be said about a write that reported too much. -/
def Receipt.Tells (receipt : Receipt) (offered : Nat) (b : Breach) : Prop :=
  b = .sinkOverrun receipt.count offered ∨ b = .bulkSinkOverrun

/-- A source whose reads can be told to be fair or not. -/
class AnsweringSource (σ : Type) [ByteSource σ] where
  /-- The states in which the source may be. -/
  Sound : σ → Prop
  read_answers {s : σ} (room : Room) : Sound s →
    Answers (ByteSource.read s room) (fun (g, _) => g.count ≤ room.size)
      (fun (g, _) => g.Tells room.size) fun (_, s) => Sound s

/-- A sink whose writes can be told to be fair or not. -/
class AnsweringSink (κ : Type) [ByteSink κ] where
  /-- The states in which the sink may be. -/
  Sound : κ → Prop
  write_answers {k : κ} (b : Bytes) : Sound k →
    Answers (ByteSink.write k b) (fun (receipt, _) => receipt.count ≤ b.length)
      (fun (receipt, _) => receipt.Tells b.length) fun (_, k) => Sound k

/-- A source that upholds the contract when it is emptied into the sink. -/
class AnsweringTransfer (σ κ : Type) [BulkSource σ] [AnsweringSource σ] [ByteSink κ]
    [AnsweringSink κ] : Prop where
  writeTo_upholds {s : σ} {k : κ} : AnsweringSource.Sound s → AnsweringSink.Sound k →
    Upholds (BulkSource.writeTo s k) fun (_, s, k) =>
      AnsweringSource.Sound s ∧ AnsweringSink.Sound k

/-- A sink that upholds the contract when it draws the source dry. -/
class AnsweringIntake (κ σ : Type) [BulkSink κ] [AnsweringSink κ] [ByteSource σ]
    [AnsweringSource σ] : Prop where
  readFrom_upholds {k : κ} {s : σ} : AnsweringSink.Sound k → AnsweringSource.Sound s →
    Upholds (BulkSink.readFrom k s) fun (_, k, s) =>
      AnsweringSink.Sound k ∧ AnsweringSource.Sound s

variable {σ κ : Type}

/-! ## Memory -/

instance : AnsweringSource MemorySource where
  Sound _ := True
  read_answers {m} room _ := by
    have hle : (m.read room.size).1.count ≤ room.size := by
      unfold MemorySource.read
      split
      · exact Nat.zero_le _
      · exact List.length_take_le _ _
    exact (Act.upholds_pure ⟨hle, trivial⟩).answers

instance : AnsweringSink MemorySink where
  Sound _ := True
  write_answers _ _ := (Act.upholds_pure ⟨Nat.le_refl _, trivial⟩).answers

instance [ByteSink κ] [AnsweringSink κ] : AnsweringTransfer MemorySource κ where
  writeTo_upholds {m k} _ hk := by
    show (m.writeTo k).Upholds _
    unfold MemorySource.writeTo
    refine .ite (fun _ => Act.upholds_pure ⟨trivial, hk⟩) fun _ => ?_
    refine (AnsweringSink.write_answers m.left hk).bind ?_ ?_
    · rintro ⟨receipt, k⟩ hle hk
      refine (Act.upholds_require hle _).bind fun _ _ => ?_
      exact Act.upholds_pure ⟨trivial, hk⟩
    · exact fun _ hover => ⟨_, .inr rfl, Act.require_bind_of_not hover _ _⟩

instance [ByteSource σ] [AnsweringSource σ] : AnsweringIntake MemorySink σ where
  readFrom_upholds {m s} _ hs := by
    show (m.readFrom s).Upholds _
    unfold MemorySink.readFrom
    refine Act.upholds_patience.bind fun rounds _ => ?_
    -- by induction on the rounds, whatever was kept before
    suffices ∀ total (m : MemorySink) (s : σ), AnsweringSource.Sound s →
        (m.readRounds rounds total s).Upholds fun (_, m, s) =>
          AnsweringSink.Sound m ∧ AnsweringSource.Sound s from this 0 m s hs
    induction rounds with
    | zero => exact fun _ _ _ _ => Act.upholds_exhausted
    | succ rounds ih =>
      intro total m s hs
      rw [MemorySink.readRounds]
      refine (AnsweringSource.read_answers _ hs).bind ?_ ?_
      · rintro ⟨g, s⟩ hle hs
        refine (Act.upholds_require hle _).bind fun _ _ => ?_
        dsimp only
        split
        · exact Act.upholds_pure ⟨trivial, hs⟩
        · exact Act.upholds_pure ⟨trivial, hs⟩
        · exact .ite (fun _ => Act.upholds_pure ⟨trivial, hs⟩) fun _ => ih _ _ _ hs
      · exact fun _ hover => ⟨_, .inr rfl, Act.require_bind_of_not hover _ _⟩

/-! ## Plain inputs and outputs -/

/-- A plain input whose reads can be told to be fair or not. -/
class AnsweringInput (ι : Type) [PlainInput ι] where
  read_answers (i : ι) (room : Room) :
    Answers (PlainInput.read i room) (fun (result, _) => ∀ g, result = .ok g → g.count ≤ room.size)
      (fun (result, _) b => ∃ g : Grant, result = .ok g ∧
        (b = .sourceOverrun g.count room.size ∨ b = .bulkSourceOverrun)) fun _ => True

/-- A plain output whose writes can be told to be fair or not. -/
class AnsweringOutput (ω : Type) [PlainOutput ω] where
  write_answers (o : ω) (b : Bytes) :
    Answers (PlainOutput.write o b) (fun (result, _) => ∀ n, result = .ok n → n ≤ b.length)
      (fun (result, _) br => ∃ n, result = .ok n ∧
        ((∃ earlier, br = .sinkOverrun (earlier + n) (earlier + b.length)) ∨
          br = .bulkSinkOverrun)) fun _ => True

/-- A result that is known is the only one that there is. -/
theorem forall_eq_ok {ε α : Type} {P : α → Prop} {a : α} (h : P a) :
    ∀ b, (.ok a : Except ε α) = .ok b → P b := by
  rintro b ⟨⟩
  exact h

/-- By induction on the rounds: an interrupted read is made again, any other tells what it
reported. -/
instance {ι : Type} [PlainInput ι] [AnsweringInput ι] : AnsweringSource (InputSource ι) where
  Sound _ := True
  read_answers {s} room _ := by
    refine Act.upholds_patience.bind_answers fun rounds _ => ?_
    generalize s.input = i
    induction rounds generalizing i with
    | zero => exact (Act.upholds_exhausted).answers
    | succ rounds ih =>
      rw [InputSource.readRounds]
      refine (AnsweringInput.read_answers i room).bind_answers ?_ ?_
      · rintro ⟨result, i⟩ hfair -
        cases result with
        | ok g =>
          dsimp only
          split
          · exact (Act.upholds_pure ⟨Nat.zero_le _, trivial⟩).answers
          · exact (Act.upholds_pure ⟨hfair g rfl, trivial⟩).answers
        | error cause =>
          dsimp only
          split
          · exact ih i
          · refine Act.upholds_freshId.bind_answers fun id _ => ?_
            exact (Act.upholds_pure ⟨Nat.zero_le _, trivial⟩).answers
      · rintro ⟨result, i⟩ hover -
        cases result with
        | error cause => exact absurd (fun g hg => nomatch hg) hover
        | ok g =>
          have hlt : ¬ g.count ≤ room.size := fun hle => hover (forall_eq_ok hle)
          refine ⟨({ g with fault := none }, ⟨i⟩), ?_, trivial, hlt, fun b hb => ⟨g, rfl, hb⟩⟩
          have hcount : g.count ≠ 0 := by omega
          simp [hcount]

/-- With nothing left to write, because too much was reported, the writing ends. -/
theorem writeRounds_of_length_le {ω : Type} [PlainOutput ω] (rounds written : Nat) (o : ω)
    {b : Bytes} {n : Nat} (h : b.length ≤ n) :
    OutputSink.writeRounds rounds written o (b.drop n) = pure (⟨written, none⟩, ⟨o⟩) := by
  rw [List.drop_eq_nil_of_le h]
  cases rounds <;> rfl

/-- By induction on the rounds: what was taken earlier counts on both sides. -/
theorem writeRounds_answers {ω : Type} [PlainOutput ω] [AnsweringOutput ω] (rounds written : Nat)
    (o : ω) (b : Bytes) :
    Answers (OutputSink.writeRounds rounds written o b)
      (fun (receipt, _) => receipt.count ≤ written + b.length)
      (fun (receipt, _) => receipt.Tells (written + b.length)) fun _ => True := by
  induction rounds generalizing written o b with
  | zero =>
    cases b with
    | nil => exact (Act.upholds_pure ⟨Nat.le_refl _, trivial⟩).answers
    | cons x b => exact (Act.upholds_exhausted).answers
  | succ rounds ih =>
    cases b with
    | nil => exact (Act.upholds_pure ⟨Nat.le_refl _, trivial⟩).answers
    | cons x b =>
      rw [OutputSink.writeRounds]
      rotate_left
      · exact List.cons_ne_nil x b
      refine (AnsweringOutput.write_answers o (x :: b)).bind_answers ?_ ?_
      · rintro ⟨result, o⟩ hfair -
        cases result with
        | error cause =>
          dsimp only
          split
          · exact ih written o (x :: b)
          · refine Act.upholds_freshId.bind_answers fun id _ => ?_
            exact (Act.upholds_pure ⟨Nat.le_add_right _ _, trivial⟩).answers
        | ok n =>
          cases n with
          | zero =>
            refine Act.upholds_freshId.bind_answers fun id _ => ?_
            exact (Act.upholds_pure ⟨Nat.le_add_right _ _, trivial⟩).answers
          | succ n =>
            have hle : n + 1 ≤ (x :: b).length := hfair (n + 1) rfl
            have hsum : written + (n + 1) + ((x :: b).drop (n + 1)).length =
                written + (x :: b).length := by
              rw [List.length_drop]
              omega
            exact hsum ▸ ih (written + (n + 1)) o ((x :: b).drop (n + 1))
      · rintro ⟨result, o⟩ hover -
        cases result with
        | error cause => exact absurd (fun n hn => nomatch hn) hover
        | ok n =>
          have hlt : ¬ n ≤ (x :: b).length := fun hle => hover (forall_eq_ok hle)
          refine ⟨(⟨written + n, none⟩, ⟨o⟩), ?_, trivial, by simp only; omega, ?_⟩
          · obtain ⟨n, rfl⟩ : ∃ n', n = n' + 1 := ⟨n - 1, by omega⟩
            exact writeRounds_of_length_le rounds _ o (Nat.le_of_not_le hlt)
          · rintro br (hbr | hbr)
            · exact ⟨n, rfl, .inl ⟨written, hbr⟩⟩
            · exact ⟨n, rfl, .inr hbr⟩

instance {ω : Type} [PlainOutput ω] [AnsweringOutput ω] : AnsweringSink (OutputSink ω) where
  Sound _ := True
  write_answers {k} b _ := by
    refine Act.upholds_patience.bind_answers fun rounds _ => ?_
    have h := writeRounds_answers rounds 0 k.output b
    rwa [Nat.zero_add] at h

end BufferedStream
