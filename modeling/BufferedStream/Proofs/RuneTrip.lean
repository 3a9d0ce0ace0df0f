import BufferedStream.Proofs.Reader.Rereading
import BufferedStream.Proofs.RoundTrip

/-!
# Writing characters and reading them back

Characters written one by one through a writer of any size, even one too small for a
single character, and read one by one through a reader of any size come back as they
went in, however the bytes are cut in between (`runes_come_back`).  After each
reading the character may be pushed back and read again, any number of times.
-/

namespace BufferedStream

open Keeping (kept)
open PausingSource (remaining Brief)

/-! ## Writing -/

namespace Writer

variable {ν κ : Type} [ByteSource ν] [BulkSink κ] [Keeping κ] [Accepting κ] {w : Writer κ}
  {sh : Shared}

/-- Writing a character to a sink that takes everything. -/
theorem perform_writeRune (c : Char) (h : w.WF) (hnone : w.fault = none) :
    Act.Returns (perform (.writeRune c : Op ν) (.writing w)) sh fun (outcome, st) _ =>
      outcome = .rune (.ok c.utf8Size) ∧ ∃ w', st = .writing w' ∧ w'.WF ∧ w'.fault = none ∧
        w'.holds = w.holds ++ Rune.encode c := by
  refine Act.meets_bind.mpr ((writeRune_meets h c).imp ?_)
  rintro ⟨result, w'⟩ sh' ⟨ss, hp, rfl⟩
  have hnone' := none_of_latches hp.latches hp.sends hnone
  refine ⟨?_, w', rfl, hp.wf h, hnone', ?_⟩
  · show Outcome.rune (w'.outcome _) = _
    rw [outcome_of_none _ hnone', Rune.encode, String.length_utf8EncodeChar]
  · refine (hp.holds_eq.resolve_right fun hfailed => ?_).2
    rw [hnone'] at hfailed
    cases hfailed.1

/-- Flushing to a sink that takes everything leaves everything with the sink. -/
theorem perform_flush (hnone : w.fault = none) :
    Act.Returns (perform (.flush : Op ν) (.writing w)) sh fun (outcome, st) _ =>
      outcome = .flushed (.ok ()) ∧ ∃ w', st = .writing w' ∧ kept w'.sink = w.holds := by
  refine Act.meets_bind.mpr ((flush_delivers hnone).imp ?_)
  rintro ⟨result, w'⟩ sh' ⟨rfl, hkept, -⟩
  exact ⟨rfl, w', rfl, hkept⟩

/-- Characters are written and then flushed. -/
def spelling (chars : List Char) : List (Op ν) := chars.map .writeRune ++ [.flush]

/-- Every character was accepted whole, and the sink keeps their encodings behind what it
kept `before`. -/
def Spelled (before : Bytes) (chars : List Char)
    (entries : List (Entry (Op ν) (Outcome ν) (Stage κ))) : Prop :=
  ∃ written w, entries = written ++ [⟨.flush, .flushed (.ok ()), .writing w⟩] ∧
    written.map Entry.outcome = chars.map (fun c => .rune (.ok c.utf8Size)) ∧
    kept w.sink = before ++ chars.flatMap Rune.encode

/-- By induction on the characters: each is accepted whole. -/
theorem spelling_returns (chars : List Char) (h : w.WF) (hnone : w.fault = none) :
    Act.Returns (Act.performAll perform (spelling chars : List (Op ν)) (.writing w)) sh
      fun entries _ => Spelled w.holds chars entries := by
  induction chars generalizing w sh with
  | nil =>
    refine Act.meets_bind.mpr ((perform_flush hnone).imp ?_)
    rintro ⟨outcome, st⟩ sh' ⟨rfl, w', rfl, hkept⟩
    exact ⟨[], w', rfl, rfl, hkept.trans (List.append_nil _).symm⟩
  | cons c cs ih =>
    refine Act.meets_bind.mpr ((perform_writeRune c h hnone).imp ?_)
    rintro ⟨outcome, st⟩ sh' ⟨rfl, w', rfl, hwf, hnone', hholds⟩
    refine Act.meets_bind.mpr ((ih hwf hnone').imp ?_)
    rintro entries sh'' ⟨written, w'', rfl, houtcomes, hkept⟩
    refine ⟨⟨.writeRune c, .rune (.ok c.utf8Size), .writing w'⟩ :: written, w'', rfl,
      congrArg (Outcome.rune (.ok c.utf8Size) :: ·) houtcomes, ?_⟩
    rw [hkept, hholds, List.flatMap_cons, List.append_assoc]

end Writer

/-! ## The round trip -/

/-- **Characters come back as they were written.**  Any characters written through a
writer with a buffer of any size into a sink that takes everything are each accepted
whole and counted by their widths, and flushing succeeds.  Whatever source then hands
out what was flushed, in whatever chunks and with brief pauses anywhere, a reader with
a buffer of any size reads them one by one, with their widths, and then the end.
After each reading the character can be pushed back and read again, `times i` times
the `i`-th. -/
theorem runes_come_back {ν κ : Type} [ByteSource ν] [BulkSink κ] [Keeping κ] [Accepting κ]
    (k : κ) (size : Nat) (pool : PoolId) (chars : List Char) (sh : Shared) :
    Act.Returns (do
        let w ← Writer.withCapacity k size pool
        Act.performAll Writer.perform (Writer.spelling chars : List (Writer.Op ν)) (.writing w))
      sh fun entries _ => Writer.Spelled (kept k) chars entries ∧
        ∀ {τ : Type} [ByteSource τ] [PausingSource τ] (s : τ),
          remaining s = chars.flatMap Rune.encode → Brief s →
          ∀ (size : Nat) (pool : PoolId) (times : Nat → Nat) (sh' : Shared),
            Reader.Keeps (Reader.Dialogue.rereads times chars)
              (Reader.withCapacity s size pool) sh' := by
  refine Act.meets_bind.mpr ((Writer.withCapacity_meets k size pool).imp ?_)
  rintro w sh₁ ⟨hfresh, -, -⟩
  refine (Writer.spelling_returns chars hfresh.wf hfresh.fault).imp ?_
  intro entries sh₂ hspelled
  rw [hfresh.holds_eq] at hspelled
  refine ⟨hspelled, ?_⟩
  intro τ _ _ s hremaining hbrief size pool times sh'
  refine Reader.keeps_rereads chars times ?_ hbrief
  exact ⟨Reader.wf_withCapacity s size pool, hremaining.symm, .inl rfl⟩

/-! ## A trip with pauses -/

namespace Script

/-- No pause of the script is so long that a reader gives up. -/
def isBrief : List SourceItem → Bool
  | [] => true
  | item :: rest => pauses (item :: rest) < maxEmptyReads && isBrief rest

theorem isBrief_read {s : Source} (h : isBrief s.items = true) (n : Nat) :
    isBrief (s.read n).2.items = true := by
  obtain ⟨items, bulk⟩ := s
  cases items with
  | nil => rfl
  | cons item rest =>
    simp only [isBrief, Bool.and_eq_true, decide_eq_true_eq] at h
    cases item with
    | piece data fault =>
      unfold Source.read
      dsimp only
      split
      · exact h.2
      · simp only [isBrief, Bool.and_eq_true, decide_eq_true_eq]
        exact h
    | idle times =>
      show isBrief (idleAgain .idle times rest) = true
      unfold idleAgain
      split
      · exact h.2
      · rw [isBrief, Bool.and_eq_true, decide_eq_true_eq]
        rw [pauses] at h ⊢
        exact ⟨by omega, h.2⟩
    | claim excess => exact h.2

/-- By induction on the calls: a script without long pauses has none later. -/
theorem Pausing.brief {t : Pausing} (h : isBrief t.source.items = true) : Brief t := by
  intro ds t' hcalls
  induction hcalls with
  | nil t =>
    show pauses t.source.items < maxEmptyReads
    cases hitems : t.source.items with
    | nil => exact Reader.maxEmptyReads_pos
    | cons item rest =>
      rw [hitems, isBrief, Bool.and_eq_true, decide_eq_true_eq] at h
      exact h.1
  | cons hreads _ ih =>
    obtain ⟨room, sh, sh', -, hread⟩ := hreads
    cases hread
    exact ih (isBrief_read h room.size)

end Script

/-- Characters of every width, with the one that also stands for what is no text. -/
def everyWidth : List Char := ['a', 'é', '€', '\uFFFD', '😀', 'z']

/-- Their encodings in pieces that cut through the characters, with pauses; the end comes
with the last. -/
def cutAcross : Script.Pausing where
  source := { items := [.piece [0x61, 0xc3] none, .idle 99, .piece [0xa9, 0xe2, 0x82] none,
    .piece [0xac, 0xef, 0xbf, 0xbd, 0xf0] none, .idle 1, .piece [0x9f, 0x98] none,
    .piece [0x80, 0x7a] (some .eof)] }

theorem runes_come_back_cutAcross :
    ∃ entries sh', (do
        let w ← Writer.withCapacity ({} : MemorySink) 3 0
        Act.performAll Writer.perform (Writer.spelling everyWidth : List (Writer.Op MemorySource))
          (.writing w) : Act _) { pools := [] } = .ok entries sh' ∧
      Writer.Spelled [] everyWidth entries ∧
      remaining cutAcross = everyWidth.flatMap Rune.encode ∧ Brief cutAcross ∧
      Reader.Keeps (Reader.Dialogue.rereads (fun i => i) everyWidth)
        (Reader.withCapacity cutAcross 16 0) sh' := by
  obtain ⟨entries, sh', hrun, hspelled, hread⟩ := Act.Returns.exists_ok
    (runes_come_back (ν := MemorySource) ({} : MemorySink) 3 0 everyWidth { pools := [] })
  have hsame : remaining cutAcross = everyWidth.flatMap Rune.encode := by decide +kernel
  have hbrief : Brief cutAcross := Script.Pausing.brief (by decide +kernel)
  exact ⟨entries, sh', hrun, hspelled, hsame, hbrief,
    hread cutAcross hsame hbrief 16 0 (fun i => i) sh'⟩

end BufferedStream
