import BufferedStream.Proofs.Reader.Readings
import BufferedStream.Proofs.Script
import BufferedStream.Proofs.Writer.Acceptance

/-!
# Writing and reading back

What goes through a writer into a sink that takes everything, and from there, cut into
any chunks, through a reader, comes out as it went in.

* `Script.Pausing` — scripts of non-empty pieces with pauses anywhere between them.
* `written_is_read_back` — the round trip, for any sizes of the buffers, the pieces, the
  chunks and the rooms.
-/

namespace BufferedStream

open Keeping (kept)
open PausingSource (remaining)

/-! ## Scripts that pause -/

namespace Script

/-- The item hands out nothing for a while. -/
def SourceItem.isIdle : SourceItem → Bool
  | .idle _ => true
  | _ => false

/-- The items of a script that are no pauses. -/
def pieces (items : List SourceItem) : List SourceItem := items.filter fun item => !item.isIdle

/-- A script without its pauses. -/
def Source.withoutPauses (s : Source) : Source := { s with items := pieces s.items }

/-- How often a script hands out nothing before its next piece. -/
def pauses : List SourceItem → Nat
  | .idle times :: rest => max times 1 + pauses rest
  | _ => 0

/-- A scripted source that is steady but for its pauses. -/
structure Pausing where
  source : Source
  steady : isSteady source.withoutPauses.items = true := by decide

namespace Pausing

/-- A pause, after which the script is one pause shorter. -/
structure Rests (s : Source) (g : Reading) (s' : Source) : Prop where
  reading : g = .ofBytes [] none
  pieces_eq : s'.withoutPauses.items = s.withoutPauses.items
  pauses_lt : pauses s'.items < pauses s.items

/-- A script rests, or serves as it would without its pauses. -/
theorem rests_or_serves {s : Source} (h : isSteady s.withoutPauses.items = true) (n : Nat) :
    Rests s (s.read n).1 (s.read n).2 ∨
      Steady.Serves s.withoutPauses n (s.read n).1 (s.read n).2.withoutPauses := by
  have hserves := Steady.serves h n
  obtain ⟨items, bulk⟩ := s
  cases items with
  | nil => exact .inr hserves
  | cons item rest =>
    cases item with
    | idle times =>
      refine .inl ⟨rfl, ?_, ?_⟩
      · show pieces (idleAgain .idle times rest) = pieces rest
        unfold idleAgain
        split <;> rfl
      · show pauses (idleAgain .idle times rest) < max times 1 + pauses rest
        unfold idleAgain
        split
        · omega
        · rw [pauses]
          omega
    | piece data fault =>
      refine .inr ?_
      by_cases hle : data.length ≤ n
      · simp only [Source.read, Source.withoutPauses, pieces, List.filter_cons,
          SourceItem.isIdle, Bool.not_false, if_true, if_pos hle] at hserves ⊢
        exact hserves
      · simp only [Source.read, Source.withoutPauses, pieces, List.filter_cons,
          SourceItem.isIdle, Bool.not_false, if_true, if_neg hle] at hserves ⊢
        exact hserves
    | claim excess => cases h

theorem steady_read {s : Source} (h : isSteady s.withoutPauses.items = true) (n : Nat) :
    isSteady (s.read n).2.withoutPauses.items = true := by
  rcases rests_or_serves h n with hrests | hserves
  · rw [hrests.pieces_eq]
    exact h
  · exact hserves.steady

instance : ByteSource Pausing where
  read t room :=
    return ((t.source.read room.size).1,
      ⟨(t.source.read room.size).2, steady_read t.steady room.size⟩)

theorem rests_or_serves_of_reads {t t' : Pausing} {n : Nat} {g : Reading}
    (h : ByteSource.Reads t n g t') :
    Rests t.source g t'.source ∨
      Steady.Serves t.source.withoutPauses n g t'.source.withoutPauses := by
  obtain ⟨room, sh, sh', rfl, hread⟩ := h
  cases hread
  exact rests_or_serves t.steady room.size

instance : PausingSource Pausing where
  read_honest t room _ := by
    rcases rests_or_serves t.steady room.size with hrests | hserves
    · show (t.source.read room.size).1.count = (t.source.read room.size).1.data.length ∧
        (t.source.read room.size).1.count ≤ room.size
      rw [hrests.reading]
      exact ⟨rfl, Nat.zero_le _⟩
    · exact ⟨hserves.count_eq, hserves.count_le⟩
  remaining t := Steady.left t.source.withoutPauses.items
  pauses t := pauses t.source.items
  remaining_of_reads h := by
    rcases rests_or_serves_of_reads h with hrests | hserves
    · rw [hrests.reading, hrests.pieces_eq]
      rfl
    · exact hserves.left_eq
  fault_of_reads h := by
    rcases rests_or_serves_of_reads h with hrests | hserves
    · exact .inl (congrArg Reading.fault hrests.reading)
    · exact hserves.fault
  brings_of_reads h hn hdata := by
    rcases rests_or_serves_of_reads h with hrests | hserves
    · exact .inr hrests.pauses_lt
    · exact .inl (hserves.brings hn hdata)

end Pausing

end Script

/-! ## The round trip -/

/-- **What is written is read back, however it is cut.**  Pieces written through a writer
with a buffer of any size into a sink that takes everything are accepted in full, and
giving up the writer succeeds.  Whatever source then hands out what the sink keeps, in
whatever chunks and with whatever pauses, a reader with a buffer of any size over it,
read on and on into whatever rooms, gets to the end after so many readings; these
deliver just what was written, behind what the sink had kept before, and report nothing
but the end. -/
theorem written_is_read_back {ν κ : Type} [ByteSource ν] [BulkSink κ] [Keeping κ] [Accepting κ]
    (k : κ) (size : Nat) (pool : PoolId) (pieces : List Writer.Piece) (sh : Shared) :
    Act.Returns (do
        let w ← Writer.withCapacity k size pool
        Act.performAll Writer.perform
          (pieces.map Writer.Piece.op ++ [.intoSink] : List (Writer.Op ν)) (.writing w))
      sh fun entries _ => ∃ k', Writer.WroteOut (kept k) pieces entries k' ∧
        ∀ {τ : Type} [ByteSource τ] [PausingSource τ] (s : τ), remaining s = kept k' →
          ∀ (size : Nat) (pool : PoolId) (rooms : Nat → Room), (∀ i, 0 < (rooms i).size) →
            ∀ sh', ∃ n, Act.Returns
              (Act.performAll Reader.perform (Reader.readings rooms n)
                (Reader.withCapacity s size pool)) sh'
              fun entries _ => ∃ gs, entries.map Entry.outcome = gs.map .reading ∧
                Reader.ToEnd (kept k ++ pieces.flatMap Writer.Piece.content) gs := by
  refine Act.meets_bind.mpr ((Writer.withCapacity_meets k size pool).imp ?_)
  rintro w sh₁ ⟨hfresh, -, -⟩
  refine (Writer.writeAll_returns pieces hfresh.wf hfresh.fault).imp ?_
  rintro entries sh₂ ⟨k', hwrote⟩
  rw [hfresh.holds_eq] at hwrote
  refine ⟨k', hwrote, ?_⟩
  intro τ _ _ s hremaining size pool rooms hrooms sh'
  obtain ⟨-, -, -, hkept⟩ := hwrote
  have hahead : (Reader.withCapacity s size pool).Ahead
      (kept k ++ pieces.flatMap Writer.Piece.content) :=
    ⟨Reader.wf_withCapacity s size pool, hkept.symm.trans hremaining.symm, .inl rfl⟩
  exact Reader.readings_to_end hahead rooms hrooms sh'

/-- Some pieces, one of them longer than a buffer of five bytes. -/
def somePieces : List Writer.Piece :=
  [.byte 0x61, .text "bc", .bytes [], .bytes [0x64, 0x65, 0x66, 0x67, 0x68, 0x69, 0x6a]]

/-- The same bytes in chunks of another size, with pauses; the end comes with the last. -/
def otherwiseCut : Script.Pausing where
  source := { items := [.idle 99, .piece [0x61, 0x62, 0x63, 0x64] none, .idle 1,
    .piece [0x65, 0x66, 0x67] none, .piece [0x68, 0x69, 0x6a] (some .eof)] }

theorem written_is_read_back_otherwiseCut :
    ∃ entries sh', (do
        let w ← Writer.withCapacity ({} : MemorySink) 5 0
        Act.performAll Writer.perform
          (somePieces.map Writer.Piece.op ++ [.intoSink] : List (Writer.Op MemorySource))
          (.writing w) : Act _) { pools := [] } = .ok entries sh' ∧
      (∃ k, Writer.WroteOut [] somePieces entries k) ∧
      ∃ n, Act.Returns
        (Act.performAll Reader.perform (Reader.readings (fun i => ⟨i % 20 + 1, [0xff]⟩) n)
          (Reader.withCapacity otherwiseCut 16 0)) sh'
        fun entries _ => ∃ gs, entries.map Entry.outcome = gs.map .reading ∧
          Reader.ToEnd (somePieces.flatMap Writer.Piece.content) gs := by
  obtain ⟨entries, sh', hrun, k, hwrote, hread⟩ := Act.Returns.exists_ok
    (written_is_read_back (ν := MemorySource) ({} : MemorySink) 5 0 somePieces { pools := [] })
  refine ⟨entries, sh', hrun, ⟨k, hwrote⟩, ?_⟩
  obtain ⟨-, -, -, hkept⟩ := hwrote
  have hsame : remaining otherwiseCut = kept k := by
    rw [hkept]
    decide +kernel
  exact hread otherwiseCut hsame 16 0 (fun i => ⟨i % 20 + 1, [0xff]⟩) (fun _ => Nat.succ_pos _) sh'

end BufferedStream
