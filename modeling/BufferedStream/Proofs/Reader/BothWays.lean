import BufferedStream.Proofs.Reader.MoveOut
import BufferedStream.Proofs.Stack.Early
import BufferedStream.Proofs.Writer.Budget

/-!
# Emptying in bulk and by turns

A byte string moves all it has in one write; any other source is emptied through the buffer,
filling after filling.  Readers of the same bytes that have been read up to the same place are
emptied alike either way into a sink with a limit, wherever the limit falls among the bytes of
the buffers and of the chunks (`Reader.writeTo_alike_in_bulk`).

* `Reader.Browsed` — a reader that has only been looked at and read from, and how far.
* `Reader.MovedAlike` — two emptyings into the same sink that come to the same.
-/

namespace BufferedStream

open Keeping (kept)
open LimitedSink (limit refusal)

/-! ## Sinks with a limit -/

instance {κ : Type} [ByteSink κ] [Keeping κ] [LimitedSink κ] : LimitedSink (Unbulked κ) where
  limit u := limit u.sink
  refusal u := refusal u.sink
  write_limited u b sh := by
    refine Act.meets_bind.mpr ((LimitedSink.write_limited u.sink b sh).imp ?_)
    intro a sh' ha
    exact ha

/-- A full disk takes too few bytes and reports nothing. -/
instance : LimitedSink Disk where
  limit d := some d.room
  refusal _ := none
  write_limited d b _ :=
    ⟨(Limit.length_within_some d.room b).symm, ⟨0, by simp⟩,
      congrArg (d.stored ++ ·) (Limit.take_min_eq_within d.room b),
      Limit.sub_min_eq_behind d.room b, rfl⟩

instance : PatientSink Disk := ⟨fun _ _ _ => rfl⟩

/-- A link takes what its budget allows, and breaks over the rest. -/
theorem flakyLink_write_limited (k : Demo.FlakyLink) (b : Bytes) (sh : Shared) :
    Act.Returns (ByteSink.write k b) sh fun (receipt, k') _ =>
      receipt.count = (Limit.within (some k.budget) b).length ∧
        (∃ id, receipt.fault = if Limit.within (some k.budget) b = b then none
          else some ((IoError.bare .connectionReset).enter id)) ∧
        k'.sent = k.sent ++ Limit.within (some k.budget) b ∧
        some k'.budget = Limit.behind (some k.budget) b := by
  have hcount := (Limit.length_within_some k.budget b).symm
  have hsent := congrArg (k.sent ++ ·) (Limit.take_min_eq_within k.budget b)
  have hbudget := Limit.sub_min_eq_behind k.budget b
  by_cases h : min b.length k.budget < b.length
  · have hlong : ¬ b.length ≤ k.budget := by omega
    simp only [ByteSink.write, h, if_true, Act.Returns, Act.meets_bind]
    refine ⟨hcount, ⟨sh.nextId, ?_⟩, hsent, hbudget⟩
    rw [if_neg (mt Limit.within_some_eq_iff.mp hlong)]
  · have hle : b.length ≤ k.budget := by omega
    simp only [ByteSink.write, h, if_false]
    refine ⟨hcount, ⟨0, ?_⟩, hsent, hbudget⟩
    rw [if_pos (Limit.within_some_eq_iff.mpr hle)]

/-- A link that breaks reports that it was reset. -/
instance : LimitedSink Demo.FlakyLink where
  limit k := some k.budget
  refusal _ := some (IoError.bare .connectionReset).enter
  write_limited k b sh := by
    refine (flakyLink_write_limited k b sh).imp ?_
    rintro ⟨receipt, k'⟩ sh' ⟨hcount, hfault, hsent, hbudget⟩
    exact ⟨hcount, hfault, hsent, hbudget, rfl⟩

instance : PatientSink Demo.FlakyLink where
  write_patient k b sh := by
    by_cases h : min b.length k.budget < b.length
    · simp only [ByteSink.write, h, if_true, Act.IfEnds, Act.meets_bind]
      rfl
    · simp only [ByteSink.write, h, if_false]
      rfl

namespace Reader

/-! ## Looking and reading -/

/-- The states of a reader over the source `s` that has only been looked at and read from.
So many bytes were handed out; what streams share may change in between. -/
inductive Browsed {σ : Type} [ByteSource σ] (s : σ) : Nat → Reader σ → Prop
  | start (size : Nat) (pool : PoolId) : Browsed s 0 (withCapacity s size pool)
  | peek {n m : Nat} {r r' : Reader σ} {p : Passage} {sh sh' : Shared} (h : Browsed s n r)
      (hrun : r.peek m sh = .ok (p, r') sh') : Browsed s n r'
  | read {n : Nat} {r r' : Reader σ} {room : Room} {g : Reading} {sh sh' : Shared}
      (h : Browsed s n r) (hrun : r.read room sh = .ok (g, r') sh') : Browsed s (n + g.count) r'

section Browsed

variable {σ : Type} [ByteSource σ] [Layer σ] {r r' : Reader σ} {ds : List Draw}

/-- Looking ahead takes nothing away. -/
theorem Peeks.remaining_eq {n : Nat} {p : Passage} (hp : r.Peeks n ds p r') (h : r.Sound) :
    r'.remaining = r.remaining := by
  cases hp with
  | tooLarge => rfl
  | seen hp hroom => exact (hp.sound h.forgetRune hroom).2
  | short hp hroom => exact (hp.sound h.forgetRune hroom).2

/-- By induction on what was done: what remains is what was not handed out. -/
theorem Browsed.remaining_eq {s : σ} (hs : Layer.Sound s) {n : Nat} (h : Browsed s n r) :
    r.Sound ∧ r.remaining = (Layer.remaining s).drop n := by
  induction h with
  | start size pool => exact ⟨sound_withCapacity hs size pool, rfl⟩
  | @peek n m r r' p sh sh' _ hrun ih =>
    obtain ⟨hsound, hremaining⟩ := ih
    obtain ⟨ds, hp⟩ := (peek_meets (H := fun _ => False) hsound.wf m).of_ok hrun
    exact ⟨(hp.not_early hsound).1, (hp.remaining_eq hsound).trans hremaining⟩
  | @read n r r' room g sh sh' _ hrun ih =>
    obtain ⟨hsound, hremaining⟩ := ih
    obtain ⟨ds, hr⟩ := (read_meets (H := fun _ => False) hsound.wf room).of_ok hrun
    obtain ⟨hcount, -⟩ :=
      (HonestSource.read_honest (H := fun _ => False) r room sh).of_ok (a := (g, r')) hrun
    have hserves := hr.serves hsound
    refine ⟨hserves.sound, ?_⟩
    rw [← List.drop_drop, ← hremaining, hserves.remaining_eq, hcount, List.drop_left]

end Browsed

/-! ## Both ways -/

section BothWays

variable {κ : Type} [ByteSink κ] [Keeping κ] [LimitedSink κ]

/-- The error of a move into a sink that refuses bytes: that of the sink, or that the write was
too short. -/
def refused (k : κ) (id : ErrorId) : Error := ((refusal k).map (· id)).getD .shortWrite

/-- The bytes `b` were moved into the sink `k` twice, and both moves came to the same, but for
the numbers of the errors: `receipt`, `left` and `k₁` tell of the first one, `receipt'`, `left'`
and `k₂` of the second. -/
structure MovedAlike (k : κ) (b : Bytes) (receipt receipt' : Receipt) (left left' : Bytes)
    (k₁ k₂ : κ) : Prop where
  moves : Moves (Filling (refusal k)) (refusal k) (kept k) (limit k) b receipt left k₁
  count_eq : receipt'.count = receipt.count
  fault : (receipt.fault = none ∧ receipt'.fault = none) ∨
    ∃ id id', receipt.fault = some (refused k id) ∧ receipt'.fault = some (refused k id')
  kept_eq : kept k₂ = kept k₁
  left_eq : left' = left

/-- What comes of a move is settled by the bytes and the sink. -/
theorem movedAlike_of_moves {k k₁ k₂ : κ} {b : Bytes} {receipt receipt' : Receipt}
    {left left' : Bytes}
    (h : Moves (Filling (refusal k)) (refusal k) (kept k) (limit k) b receipt left k₁)
    (h' : Moves (Filling (refusal k)) (refusal k) (kept k) (limit k) b receipt' left' k₂) :
    MovedAlike k b receipt receipt' left left' k₁ k₂ where
  moves := h
  count_eq := h'.count_eq.trans h.count_eq.symm
  fault := by
    obtain ⟨id, hfault⟩ := h.fault_eq
    obtain ⟨id', hfault'⟩ := h'.fault_eq
    by_cases hall : (limit k).within b = b
    · rw [if_pos hall] at hfault hfault'
      exact .inl ⟨hfault, hfault'⟩
    · rw [if_neg hall] at hfault hfault'
      exact .inr ⟨id, id', hfault, hfault'⟩
  kept_eq := h'.sink.1.trans h.sink.1.symm
  left_eq := h'.left_eq.trans h.left_eq.symm

/-- **Emptying in bulk and by turns agree.**  Of two readers of the same bytes, both read up to
the same place, one has a byte string for its source and the other any source of finitely many
bytes without a bulk transfer.  Emptied into a sink with a limit, or without one, they count as
many bytes, give the same ones to the sink, report the same but for the number of the error, and
leave the same to be read. -/
theorem writeTo_alike_in_bulk {τ : Type} [BulkSource τ] [FiniteSource τ] [Bulkless τ]
    [PatientSink κ] {b : Bytes} {s : τ} (hs : FiniteSource.remaining s = b) {n : Nat}
    {r : Reader MemorySource} {t : Reader τ} (hr : Browsed ⟨b⟩ n r) (ht : Browsed s n t) (k : κ)
    (sh sh' : Shared) (hpatience : b.length < sh'.patience) :
    Act.Returns (r.writeTo k) sh fun (receipt, r', k₁) _ =>
      Act.Returns (t.writeTo k) sh' fun (receipt', t', k₂) _ =>
        (r'.Sound ∧ t'.Sound) ∧
          MovedAlike k (b.drop n) receipt receipt' r'.remaining t'.remaining k₁ k₂ := by
  obtain ⟨hrsound, hrleft⟩ := hr.remaining_eq trivial
  obtain ⟨htsound, htleft⟩ := ht.remaining_eq trivial
  have hk : Filling (refusal k) k (kept k) (limit k) := ⟨rfl, rfl, rfl⟩
  have hP : TakesWithin (Filling (κ := κ) (refusal k)) (refusal k) := takesWithin_filling _
  have hleft : t.remaining = b.drop n := htleft.trans (congrArg (List.drop n) hs)
  have hrounds : t.remaining.length < sh'.patience := by
    rw [hleft, List.length_drop]
    omega
  refine (writeTo_moves_in_bulk hP hrsound hk).imp ?_
  intro ⟨receipt, r', k₁⟩ sh₁ ⟨hr', hmoves⟩
  refine (writeTo_moves hP htsound hk hrounds).imp ?_
  intro ⟨receipt', t', k₂⟩ sh₂ ⟨ht', hmoves'⟩
  rw [hrleft] at hmoves
  rw [hleft] at hmoves'
  exact ⟨⟨hr', ht'⟩, movedAlike_of_moves hmoves hmoves'⟩

end BothWays

/-! ## A link that breaks in the middle -/

/-- Six letters. -/
def sixLetters : Bytes := [0x61, 0x62, 0x63, 0x64, 0x65, 0x66]

/-- The six letters in three chunks, the last of which comes with the end. -/
def sixInChunks : Piecemeal Script.Steady :=
  ⟨{ items := [.piece [0x61, 0x62] none, .piece [0x63, 0x64, 0x65] none, .piece [0x66] (some .eof)] },
    by decide⟩

/-- A letter is read, and the link breaks after two more. -/
theorem writeTo_alike_in_bulk_brokenLink :
    FiniteSource.remaining sixInChunks = sixLetters ∧ sixLetters.length < 9 ∧
      ∃ (r : Reader MemorySource) (t : Reader (Piecemeal Script.Steady)),
        Browsed ⟨sixLetters⟩ 1 r ∧ Browsed sixInChunks 1 t ∧
        Act.Returns (r.writeTo ({ budget := 2 } : Demo.FlakyLink)) { pools := [] }
          fun (receipt, r', k₁) _ =>
            Act.Returns (t.writeTo ({ budget := 2 } : Demo.FlakyLink))
              { pools := [], patience := 9 } fun (receipt', t', k₂) _ =>
                (r'.Sound ∧ t'.Sound) ∧ MovedAlike { budget := 2 } (sixLetters.drop 1) receipt
                  receipt' r'.remaining t'.remaining k₁ k₂ := by
  refine ⟨rfl, by decide, ?_⟩
  have hread : ∃ r sh', (withCapacity (⟨sixLetters⟩ : MemorySource) 16 0).read { size := 1 }
      { pools := [] } = .ok (.ofBytes [0x61] none, r) sh' := ⟨_, _, rfl⟩
  have hread' : ∃ t sh', (withCapacity sixInChunks 32 0).read { size := 1 } { pools := [] } =
      .ok (.ofBytes [0x61] none, t) sh' := ⟨_, _, rfl⟩
  obtain ⟨r, _, hrun⟩ := hread
  obtain ⟨t, _, hrun'⟩ := hread'
  have hr : Browsed ⟨sixLetters⟩ 1 r := .read (.start 16 0) hrun
  have ht : Browsed sixInChunks 1 t := .read (.start 32 0) hrun'
  exact ⟨r, t, hr, ht, writeTo_alike_in_bulk rfl hr ht _ _ _ (by decide)⟩

end Reader

end BufferedStream
