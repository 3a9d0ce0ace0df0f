import BufferedStream.Proofs.Reader.Lent
import BufferedStream.Proofs.Reader.Plain
import BufferedStream.Proofs.Reader.Records

/-!
# When the block of a drained reader goes back

Once the end of the stream is latched and nothing is unread, the next operation that settles
hands the block back.  An operation that takes the end of the stream before it settles, or does
not settle at all, overlooks the block, and it stays with the reader.

* `Reader.GivesBack` — an operation hands the block back if it leaves the reader drained,
  unless it overlooks it.
* `Reader.Stocked.read`, `Reader.Stocked.readByte`, `Reader.Stocked.fillBuf`,
  `Reader.Stocked.consume` — of these the first overlooks the block where it does not use the
  buffer, and the last where nothing was unread.
* `Reader.Stocked.readBytes`, `Reader.Stocked.readString` — collecting a record overlooks the
  block if the record ends with a piece that is not empty.
-/

namespace BufferedStream

namespace Reader

variable {σ : Type} {r r' : Reader σ} {told overlooked : Prop} {pool : PoolId}
  {config : PoolConfig} {total : Nat} {sh : Shared}

/-! ## What is overlooked -/

/-- The operation that led from one reader to the other, and may have told of the end of the
stream, hands the block back if it leaves the reader drained; unless the block was overlooked,
and then it stays. -/
structure GivesBack (r : Reader σ) (told overlooked : Prop) (r' : Reader σ) : Prop where
  relieved : ¬ overlooked → r'.Relieved told
  kept : overlooked → r.held ≠ none → r'.held ≠ none

/-- A block that is never overlooked. -/
theorem GivesBack.of_relieved (h : r'.Relieved told) (hsees : ¬ overlooked) :
    r.GivesBack told overlooked r' :=
  ⟨fun _ => h, fun hover => absurd hover hsees⟩

/-- A block that is always overlooked. -/
theorem GivesBack.of_kept (hover : overlooked) (hheld : r'.held = r.held) :
    r.GivesBack told overlooked r' :=
  ⟨fun hsees => absurd hover hsees, fun _ hne => hheld ▸ hne⟩

/-- The reading does not use the buffer: there is no room, or so much that it is offered to
the source itself. -/
def Bypasses (r : Reader σ) (room : Room) : Prop :=
  room.size = 0 ∨ (r.window.unread = [] ∧ r.fault = none ∧ r.size ≤ room.size)

/-- What a scan does with the block: with nothing to hand out at the end of the stream it
goes back, and else a block that was there stays. -/
structure Searched (r : Reader σ) (p : Passage) (r' : Reader σ) : Prop where
  kept : p.bytes ≠ [] ∨ p.fault ≠ some .eof → r.held ≠ none → r'.held ≠ none
  relieved : p.bytes = [] → p.fault = some .eof → r'.held = none

/-- A scan that held a block in the end. -/
theorem Searched.of_held {p : Passage} (hfault : p.fault ≠ some .eof) (hheld : r'.held ≠ none) :
    r.Searched p r' :=
  ⟨fun _ _ => hheld, fun _ heof => absurd heof hfault⟩

/-- What collecting a record does with the block: with an empty last piece at the end of the
stream it goes back, and with one that is not empty a block that was there stays. -/
structure Collected (r : Reader σ) (p : Passage) (r' : Reader σ) : Prop where
  kept : r'.lastByte ≠ none → r.held ≠ none → r'.held ≠ none
  relieved : r'.lastByte = none → p.fault = some .eof → r'.held = none
  cleared : p.fault ≠ none ∨ r'.lastByte = none → r'.fault = none

/-- A scan that ended with an error of the source, or with nothing, takes the error. -/
theorem Scans.fault_eq_none [ByteSource σ] {delim : UInt8} {ds : List Draw} {p : Passage}
    (hs : r.Scans delim ds p r') (hpiece : p.fault ≠ some .bufferFull)
    (hends : p.fault ≠ none ∨ p.bytes = []) : r'.fault = none := by
  cases hs with
  | found hp hnew hi =>
    have hbytes := (Scans.found hp hnew hi).bytes_ne_nil rfl
    exact absurd (hends.resolve_left fun hne => hne rfl) hbytes
  | full => exact absurd rfl hpiece
  | ended => rfl

namespace Stocked

/-! ## Bytes -/

theorem delivering (h : r.Stocked pool config total sh) (n : Nat) :
    (r.delivering n).Stocked pool config total sh :=
  h.congr rfl rfl rfl

theorem cleared (h : r.Stocked pool config total sh) : r.cleared.Stocked pool config total sh :=
  h.congr rfl rfl rfl

theorem deliverOrReport (h : r.Stocked pool config total sh) (n : Nat) :
    (r.deliverOrReport n).IfEnds sh fun a sh' => a.2.Stocked pool config total sh' ∧
      a.2.Relieved (a.1.fault = some .eof) := by
  unfold Reader.deliverOrReport
  split
  · refine Act.meets_bind.mpr ((h.delivering n).settle.imp ?_)
    rintro r' sh' ⟨h', -, hback⟩
    exact ⟨h', hback.quiet nofun⟩
  · refine Act.meets_bind.mpr (h.settle.imp ?_)
    rintro r' sh' ⟨h', -, hback⟩
    exact ⟨h'.cleared, hback.cleared id⟩

theorem takeByte (h : r.Stocked pool config total sh) :
    r.takeByte.IfEnds sh fun a sh' => a.2.Stocked pool config total sh' ∧
      a.2.Relieved (a.1 = .error .eof) := by
  unfold Reader.takeByte
  split
  · rename_i b _ _
    have htaken : Stocked pool config total
        { r with window := r.window.advance 1, lastByte := some b } sh := h.congr rfl rfl rfl
    refine Act.meets_bind.mpr (htaken.settle.imp ?_)
    rintro r' sh' ⟨h', -, hback⟩
    exact ⟨h', hback.quiet nofun⟩
  · refine Act.meets_bind.mpr (h.settle.imp ?_)
    rintro r' sh' ⟨h', -, hback⟩
    cases hfault : r'.fault with
    | none => trivial
    | some e =>
      refine ⟨h'.cleared, hback.cleared fun htold => ?_⟩
      rw [hfault, Except.error.inj htold]

section Filling

variable [ByteSource σ] [AloofSource pool σ]

theorem readThrough (h : r.Stocked pool config total sh) (room : Room) :
    (r.readThrough room).IfEnds sh fun a sh' => a.2.Stocked pool config total sh' ∧
      a.2.held = r.held := by
  refine Act.meets_bind.mpr ((h.draw room).imp ?_)
  rintro ⟨g, _⟩ sh' ⟨h', s, rfl⟩
  dsimp only
  split
  · exact ⟨h', rfl⟩
  · exact ⟨h'.congr rfl rfl rfl, rfl⟩

theorem read (h : r.Stocked pool config total sh) (room : Room) :
    (r.read room).IfEnds sh fun a sh' => a.2.Stocked pool config total sh' ∧
      r.GivesBack (a.1.fault = some .eof) (r.Bypasses room) a.2 := by
  unfold Reader.read
  dsimp only
  split
  · rename_i h0
    exact ⟨h.cleared, .of_kept (.inl h0) rfl⟩
  rename_i hroom
  split
  · rename_i hready
    refine (h.deliverOrReport room.size).imp fun a sh' ha => ⟨ha.1, .of_relieved ha.2 ?_⟩
    rintro (h0 | ⟨hunread, hfault, -⟩)
    · exact hroom h0
    · simp [hunread, hfault] at hready
  rename_i hdry
  split
  · rename_i hlarge
    simp only [Bool.or_eq_true, decide_eq_true_eq, not_or, Decidable.not_not,
      Option.not_isSome_iff_eq_none] at hdry
    exact (h.readThrough room).imp fun a sh' ha =>
      ⟨ha.1, .of_kept (.inr ⟨hdry.1, hdry.2, hlarge⟩) ha.2⟩
  · rename_i hsmall
    refine Act.meets_bind.mpr (h.readOnce.imp fun r₁ sh₁ h₁ => ?_)
    refine (h₁.deliverOrReport room.size).imp fun a sh' ha => ⟨ha.1, .of_relieved ha.2 ?_⟩
    rintro (h0 | ⟨-, -, hlarge⟩)
    · exact hroom h0
    · exact hsmall hlarge

theorem readByte (h : r.Stocked pool config total sh) :
    r.readByte.IfEnds sh fun a sh' => a.2.Stocked pool config total sh' ∧
      r.GivesBack (a.1 = .error .eof) False a.2 := by
  have hready : Stocked pool config total { r with lastRune := none } sh := h.congr rfl rfl rfl
  refine Act.meets_bind.mpr ((hready.ensure 1).imp fun r₁ sh₁ h₁ => ?_)
  exact h₁.takeByte.imp fun a sh' ha => ⟨ha.1, .of_relieved ha.2 id⟩

end Filling

/-! ## Access to the buffer -/

/-- A reader that shows its buffer has bytes or an error to show. -/
theorem showBuffer (h : r.Stocked pool config total sh)
    (hends : r.window.unread ≠ [] ∨ r.fault.isSome = true) :
    r.showBuffer.IfEnds sh fun a sh' => a.2.Stocked pool config total sh' ∧
      a.2.Relieved (a.1 = .ok []) := by
  unfold Reader.showBuffer
  split
  · rename_i hne
    exact ⟨h, fun hunread => absurd hunread hne⟩
  · rename_i hunread
    refine Act.meets_bind.mpr (h.settle.imp ?_)
    rintro r' sh' ⟨h', hs, hback⟩
    obtain ⟨e, -, he⟩ := hs.fault_of_unread hends (Decidable.of_not_not hunread)
    split
    · rename_i hnone
      rw [hnone] at he
      cases he
    · rename_i heof
      exact ⟨h'.cleared, hback.cleared fun _ => heof⟩
    · refine Act.meets_bind.mpr (failure_meets fun shared => ?_)
      exact ⟨h'.cleared, hback.cleared nofun⟩

theorem fillBuf [ByteSource σ] [AloofSource pool σ] [HonestSource (fun _ => True) σ] (hwf : r.WF)
    (h : r.Stocked pool config total sh) :
    r.fillBuf.IfEnds sh fun a sh' => a.2.Stocked pool config total sh' ∧
      r.GivesBack (a.1 = .ok []) False a.2 := by
  unfold Reader.fillBuf
  split
  · rename_i hempty
    simp only [Bool.and_eq_true, decide_eq_true_eq] at hempty
    have hroom : r.buffered < r.size := by
      rw [buffered, hempty.1]
      exact hwf.size_pos
    refine Act.meets_bind.mpr (((fill_meets r).and h.fill).imp ?_)
    rintro r₁ sh₁ ⟨⟨ds, hf⟩, h₁, -⟩
    have hends : r₁.window.unread ≠ [] ∨ r₁.fault.isSome = true :=
      (hf.progress hroom).symm.imp (fun hlt => List.ne_nil_of_length_pos (Nat.zero_lt_of_lt hlt)) id
    exact (h₁.showBuffer hends).imp fun a sh' ha => ⟨ha.1, .of_relieved ha.2 id⟩
  · rename_i hready
    refine (h.showBuffer ?_).imp fun a sh' ha => ⟨ha.1, .of_relieved ha.2 id⟩
    simpa [Option.isSome_iff_ne_none, Decidable.imp_iff_not_or] using hready

/-- Where nothing was unread there is nothing to count as read, and the reader does not
settle. -/
theorem consume (h : r.Stocked pool config total sh) (n : Nat) :
    (r.consume n).IfEnds sh fun r' sh' => r'.Stocked pool config total sh' ∧
      r.GivesBack False (r.window.unread = []) r' := by
  unfold Reader.consume
  dsimp only
  split
  · exact ⟨h, fun hne hnil => absurd hnil hne, fun _ hheld => hheld⟩
  · rename_i htaken
    refine (h.delivering n).settle.imp ?_
    rintro r' sh' ⟨h', -, hback⟩
    refine ⟨h', .of_relieved hback fun hnil => htaken ?_⟩
    rw [hnil, List.take_nil]

/-! ## Records -/

/-- A scan that meets an error hands out what is there, and settles if that is nothing. -/
theorem scanRounds_latched [ByteSource σ] {e : Error} (h : r.Stocked pool config total sh)
    (hfault : r.fault = some e) (delim : UInt8) (rounds : Nat) :
    (r.scanRounds delim rounds).IfEnds sh fun a sh' => a.2.Stocked pool config total sh' ∧
      r.Searched a.1 a.2 := by
  unfold Reader.scanRounds
  rw [hfault]
  dsimp only [handOutAll]
  split
  · rename_i hnil
    refine Act.meets_bind.mpr ((settle (h.withWindow _)).imp ?_)
    rintro r' sh' ⟨h', hs, hback⟩
    refine ⟨h'.cleared, ?_, fun _ heof => ?_⟩
    · rintro (hne | hne) hheld
      · exact absurd hnil hne
      · cases hs with
        | keeps => exact hheld
        | returns _ heof => exact absurd (hfault.symm.trans heof) hne
    · exact hback hs.unread_eq (.inl (hs.fault_eq.trans (hfault.trans heof)))
  · rename_i hne
    exact ⟨h.congr rfl rfl rfl, fun _ hheld => hheld, fun hnil => absurd hnil hne⟩

variable [ByteSource σ] [AloofSource pool σ]

/-- By induction on the rounds: every filling leaves the reader with a block. -/
theorem scanRounds (h : r.Stocked pool config total sh) (delim : UInt8) (rounds : Nat) :
    (r.scanRounds delim rounds).IfEnds sh fun a sh' => a.2.Stocked pool config total sh' ∧
      r.Searched a.1 a.2 := by
  induction rounds generalizing r sh with
  | zero =>
    cases hfault : r.fault with
    | some e => exact h.scanRounds_latched hfault delim 0
    | none =>
      unfold Reader.scanRounds
      rw [hfault]
      trivial
  | succ rounds ih =>
    cases hfault : r.fault with
    | some e => exact h.scanRounds_latched hfault delim (rounds + 1)
    | none =>
      unfold Reader.scanRounds
      rw [hfault]
      dsimp only
      refine Act.meets_bind.mpr (h.fill.imp ?_)
      rintro r₁ sh₁ ⟨h₁, hheld⟩
      split
      · exact ⟨h₁.withWindow _, .of_held nofun hheld⟩
      · split
        · exact ⟨h₁.withWindow _, .of_held nofun hheld⟩
        · exact (ih h₁).imp fun a sh' ha => ⟨ha.1, fun hp _ => ha.2.kept hp hheld, ha.2.relieved⟩

theorem readSlice (h : r.Stocked pool config total sh) (delim : UInt8) :
    (r.readSlice delim).IfEnds sh fun a sh' => a.2.Stocked pool config total sh' ∧
      r.Searched a.1 a.2 := by
  have hscan : (r.scanUntil delim).IfEnds sh fun a sh' => a.2.Stocked pool config total sh' ∧
      r.Searched a.1 a.2 := by
    unfold scanUntil
    split
    · exact ⟨h.withWindow _, fun _ hheld => hheld, nofun⟩
    · exact h.scanRounds delim _
  exact Act.meets_bind.mpr (hscan.imp fun a sh' ha =>
    ⟨ha.1.congr rfl rfl rfl, ha.2.kept, ha.2.relieved⟩)

variable [HonestSource (fun _ => True) σ]

/-- By induction on the rounds: as long as the buffer is full the block stays. -/
theorem readBytesRounds (hwf : r.WF) (h : r.Stocked pool config total sh) (delim : UInt8)
    (rounds : Nat) (collected : Bytes) :
    (r.readBytesRounds delim rounds collected).IfEnds sh fun a sh' =>
      a.2.Stocked pool config total sh' ∧ r.Collected a.1 a.2 := by
  induction rounds generalizing collected r sh with
  | zero => trivial
  | succ rounds ih =>
    rw [Reader.readBytesRounds]
    refine Act.meets_bind.mpr (((readSlice_meets hwf delim).and (h.readSlice delim)).imp ?_)
    rintro ⟨p, r'⟩ sh' ⟨⟨ds, r₁, hs, rfl⟩, h', hscan⟩
    dsimp only at hscan ⊢
    split
    · -- a full buffer is not the end of the stream, so the block is still there
      rename_i hfull
      have hheld := hscan.kept (.inr (by rw [hfull]; rintro ⟨⟩))
      refine (ih (hs.wf.noteDelivered _) h' _).imp fun a sh'' ha => ⟨ha.1, ?_⟩
      exact ⟨fun hlast hne => ha.2.kept hlast (hheld hne), ha.2.relieved, ha.2.cleared⟩
    · rename_i hpiece
      have hnil : (r₁.noteDelivered p.bytes).lastByte = none ↔ p.bytes = [] :=
        List.getLast?_eq_none_iff
      refine ⟨h', fun hlast => hscan.kept (.inl (mt hnil.mpr hlast)),
        fun hlast => hscan.relieved (hnil.mp hlast), fun hends => ?_⟩
      exact hs.fault_eq_none (fun hfull => hpiece hfull) (hends.imp id hnil.mp)

theorem collectBytes (hwf : r.WF) (h : r.Stocked pool config total sh) (delim : UInt8) :
    (r.readBytes delim).IfEnds sh fun a sh' =>
      a.2.Stocked pool config total sh' ∧ r.Collected a.1 a.2 :=
  Act.meets_bind.mpr (Act.meets_patience.mpr (h.readBytesRounds hwf delim _ []))

theorem readBytes (hwf : r.WF) (h : r.Stocked pool config total sh) (delim : UInt8) :
    (r.readBytes delim).IfEnds sh fun a sh' => a.2.Stocked pool config total sh' ∧
      r.GivesBack (a.1.fault = some .eof) (a.2.lastByte ≠ none) a.2 := by
  refine (h.collectBytes hwf delim).imp fun a sh' ha => ⟨ha.1, ?_, ha.2.kept⟩
  intro hlast _ hends
  have hnone := Decidable.of_not_not hlast
  refine ha.2.relieved hnone (hends.resolve_left ?_)
  rw [ha.2.cleared (.inr hnone)]
  nofun

/-- A text settles after the record was collected, which is too late if the record took the
end of the stream. -/
theorem readString (hwf : r.WF) (h : r.Stocked pool config total sh) (delim : UInt8) :
    (r.readString delim).IfEnds sh fun a sh' => a.2.Stocked pool config total sh' ∧
      r.GivesBack (a.1.2 = some .eof) (a.1.2 ≠ none ∧ a.2.lastByte ≠ none) a.2 := by
  refine Act.meets_bind.mpr ((h.collectBytes hwf delim).imp ?_)
  rintro ⟨p, r₁⟩ sh₁ ⟨h₁, hc⟩
  refine Act.meets_bind.mpr (h₁.settle.imp ?_)
  rintro r' sh' ⟨h', hs, hback⟩
  dsimp only at hc ⊢
  refine ⟨h', ?_⟩
  by_cases hfault : p.fault = none
  · refine .of_relieved (hback.quiet ?_) fun hover => hover.1 hfault
    rw [hfault]
    nofun
  · -- the record took the error with it, so settling finds none
    have hcleared := hc.cleared (.inl hfault)
    cases hs with
    | returns _ heof => rw [hcleared] at heof; cases heof
    | keeps =>
      refine ⟨fun hsees _ hends => ?_, fun hover => hc.kept hover.2⟩
      rw [hcleared] at hends
      refine hc.relieved ?_ (hends.resolve_left nofun)
      exact Decidable.of_not_not fun hlast => hsees ⟨hfault, hlast⟩

end Stocked

end Reader

end BufferedStream
