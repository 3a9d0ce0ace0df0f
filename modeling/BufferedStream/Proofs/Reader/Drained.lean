import BufferedStream.Proofs.Reader.Emptying
import BufferedStream.Proofs.Reader.GivingBack

/-!
# Drained readers

A reader is drained when nothing is unread and the end of the stream is latched, or the call
that took the last byte told of the end.  A drained reader has given its block back, except
where the call overlooked it.

* `Reader.Stocked.writeTo` — emptying into a sink overlooks the block where the source takes
  over, unless writing the unread bytes brought it back before.
* `Reader.Overlooks` — the calls that overlook the block.
* `Reader.drained_gives_back` — a call that leaves the reader drained gives the block back,
  unless it overlooks it, and then it does not.
-/

namespace BufferedStream

namespace Reader

variable {σ κ : Type} {r r' : Reader σ} {pool : PoolId} {config : PoolConfig} {total : Nat}
  {sh : Shared}

/-! ## Emptying into a sink -/

/-- What writing the unread bytes does with the block: at the end of the stream it goes back
once all are written, and else it stays. -/
structure Wrote (r : Reader σ) (receipt : Receipt) (r' : Reader σ) : Prop where
  wf : r'.WF
  fault_eq : r'.fault = r.fault
  all : receipt.fault = none → r'.window.unread = []
  idle : r.window.unread = [] → receipt.fault = none
  relieved : r.window.unread ≠ [] → r'.Relieved False
  kept : r.window.unread = [] ∨ r.fault ≠ some .eof → r'.held = r.held

/-- The source takes over when the reader is emptied into the sink: the unread bytes are
written, and then it moves all it has. -/
def TakesOver [BulkSource σ] [ByteSink κ] (r : Reader σ) (k : κ) (sh : Shared) : Prop :=
  ∃ n r₁ k₁ sh₁ receipt s k₂ sh₂, r.forgetting.drain k sh = .ok (⟨n, none⟩, r₁, k₁) sh₁ ∧
    BulkSource.writeTo r₁.source k₁ sh₁ = .ok (some receipt, s, k₂) sh₂

namespace Stocked

section Drain

variable [ByteSink κ] [AloofSink pool κ]

theorem drain (hwf : r.WF) (h : r.Stocked pool config total sh) (k : κ) :
    (r.drain k).IfEnds sh fun a sh' => a.2.1.Stocked pool config total sh' ∧
      r.Wrote a.1 a.2.1 := by
  unfold Reader.drain
  split
  · rename_i hnil
    exact ⟨h, hwf, rfl, fun _ => hnil, fun _ => rfl, fun hne => absurd hnil hne, fun _ => rfl⟩
  · rename_i hne
    refine Act.meets_bind.mpr ((h.meanwhile (AloofSink.write_aloof k r.window.unread)).imp ?_)
    rintro ⟨receipt, k'⟩ sh₁ h₁
    refine Act.meets_bind.mpr (Act.ifEnds_require fun _ => ?_)
    refine Act.meets_bind.mpr ((h₁.withWindow (r.window.advance receipt.count)).settle.imp ?_)
    rintro r' sh' ⟨h', hs, hback⟩
    refine ⟨h', hs.wf (hwf.advance _ _ _), hs.fault_eq, fun hnone => ?_,
      fun hnil => absurd hnil hne, fun _ => hback, ?_⟩
    · -- a sink that took less would be reported
      rw [hs.unread_eq]
      refine List.drop_eq_nil_of_le (Nat.le_of_not_lt fun hlt => ?_)
      cases hfault : receipt.fault with
      | none => simp [hfault, buffered, hlt] at hnone
      | some e => simp [hfault] at hnone
    · rintro (hnil | hfault)
      · exact absurd hnil hne
      · cases hs with
        | keeps => rfl
        | returns _ heof => exact absurd heof hfault

end Drain

section Empty

variable [ByteSource σ] [AloofSource pool σ] [HonestSource (fun _ => True) σ] [ByteSink κ]
  [AloofSink pool κ]

/-- By induction on the rounds.  In the end nothing is unread and an error is latched, or the
sink failed. -/
theorem drainRounds (hwf : r.WF) (h : r.Stocked pool config total sh)
    (hunread : r.window.unread = []) (rounds moved : Nat) (k : κ) :
    (drainRounds rounds moved r k).IfEnds sh fun a sh' =>
      a.2.1.Stocked pool config total sh' ∧
        (a.1.fault = none → a.2.1.window.unread = [] ∧ a.2.1.fault ≠ none) ∧
        (a.1.fault ≠ none → a.2.1.Relieved False) := by
  induction rounds generalizing moved r k sh with
  | zero => trivial
  | succ rounds ih =>
    rw [Reader.drainRounds]
    refine Act.meets_bind.mpr (((fill_meets r).and h.fill).imp ?_)
    rintro r₁ sh₁ ⟨⟨ds, hf⟩, h₁, -⟩
    split
    · rename_i hdry
      refine ⟨h₁, fun _ => ⟨hdry, ?_⟩, fun hne => absurd rfl hne⟩
      have hroom : r.buffered < r.size := by
        rw [buffered, hunread]
        exact hwf.size_pos
      refine Option.isSome_iff_ne_none.mp ((hf.progress hroom).resolve_right fun hlt => ?_)
      simp [buffered, hdry] at hlt
    · rename_i hne
      refine Act.meets_bind.mpr ((h₁.drain (hf.wf hwf) k).imp ?_)
      rintro ⟨receipt, r₂, k₁⟩ sh₂ ⟨h₂, hw⟩
      dsimp only at h₂ hw ⊢
      split
      · rename_i hfailed
        refine ⟨h₂, fun hnone => ?_, fun _ => hw.relieved hne⟩
        rw [hnone] at hfailed
        cases hfailed
      · rename_i hwrote
        exact ih hw.wf h₂ (hw.all (Option.not_isSome_iff_eq_none.mp hwrote)) _ _

omit [ByteSource σ] [AloofSource pool σ] [HonestSource (fun _ => True) σ] in
/-- With nothing unread and an error latched, no fault means that the end was latched. -/
theorem concludeTransfer (h : r.Stocked pool config total sh) (hunread : r.window.unread = [])
    (hfault : r.fault ≠ none) :
    r.concludeTransfer.IfEnds sh fun a sh' => a.2.Stocked pool config total sh' ∧
      a.2.fault = none ∧ (a.1 = none → a.2.held = none) := by
  unfold Reader.concludeTransfer
  split
  · rename_i heof
    refine Act.meets_bind.mpr (h.settle.imp ?_)
    rintro r' sh' ⟨h', hs, hback⟩
    refine ⟨h'.cleared, rfl, fun _ => hback (hs.unread_eq.trans hunread) (.inl ?_)⟩
    exact hs.fault_eq.trans (eq_eof_of_isEof heof)
  · exact ⟨h.cleared, rfl, fun hnone => absurd hnone hfault⟩

end Empty

/-- **Emptying into a sink** overlooks the block if the source takes over; the unread bytes
are written before, and bring the block back if there are any and the end of the stream is
latched. -/
theorem writeTo [BulkSource σ] [AloofBulk pool σ] [HonestSource (fun _ => True) σ] [ByteSink κ]
    [AloofSink pool κ] (hwf : r.WF) (h : r.Stocked pool config total sh) (k : κ) :
    (r.writeTo k).IfEnds sh fun a sh' => a.2.1.Stocked pool config total sh' ∧
      r.GivesBack (a.1.fault = none)
        (r.TakesOver k sh ∧ (r.window.unread = [] ∨ r.fault ≠ some .eof)) a.2.1 := by
  have hforget : r.forgetting.Stocked pool config total sh := h.congr rfl rfl rfl
  have hwf' : r.forgetting.WF := ⟨hwf.1, hwf.2, hwf.3, hwf.4⟩
  refine Act.meets_bind.mpr ((hforget.drain hwf' k).ran.imp ?_)
  rintro ⟨⟨n, fault⟩, r₁, k₁⟩ sh₁ ⟨hdrain, h₁, hw⟩
  dsimp only at h₁ hw ⊢
  cases fault with
  | some e =>
    refine ⟨h₁, .of_relieved ((hw.relieved fun hunread => ?_).quiet nofun) ?_⟩
    · cases hw.idle hunread
    · rintro ⟨⟨_, _, _, _, _, _, _, _, hdrain', -⟩, -⟩
      cases hdrain.symm.trans hdrain'
  | none =>
    refine Act.meets_bind.mpr ((h₁.meanwhile (AloofBulk.writeTo_aloof r₁.source k₁)).ran.imp ?_)
    rintro ⟨bulk, s, k₂⟩ sh₂ ⟨hbulk, h₂⟩
    have hmoved : Stocked pool config total { r₁ with source := s } sh₂ := h₂.congr rfl rfl rfl
    cases bulk with
    | some receipt =>
      have hover : r.TakesOver k sh := ⟨n, r₁, k₁, sh₁, receipt, s, k₂, sh₂, hdrain, hbulk⟩
      refine ⟨hmoved, fun hsees hnil _ => ?_, fun hsees hheld => ?_⟩
      · rw [not_and, not_or, Classical.not_not] at hsees
        exact hw.relieved (hsees hover).1 hnil (.inl (hw.fault_eq.trans (hsees hover).2))
      · exact (hw.kept hsees.2).symm ▸ hheld
    | none =>
      -- the source declined, so the reader fills and drains by turns until it settles
      have hsees : ¬ (r.TakesOver k sh ∧ (r.window.unread = [] ∨ r.fault ≠ some .eof)) := by
        rintro ⟨⟨_, _, _, _, _, _, _, _, hdrain', hbulk'⟩, -⟩
        cases hdrain.symm.trans hdrain'
        cases hbulk.symm.trans hbulk'
      have hwf₁ : ({ r₁ with source := s } : Reader σ).WF :=
        ⟨hw.wf.1, hw.wf.2, hw.wf.3, hw.wf.4⟩
      refine Act.meets_bind.mpr (Act.meets_patience.mpr (Act.meets_bind.mpr
        ((hmoved.drainRounds hwf₁ (hw.all rfl) sh₂.patience n k₂).imp ?_)))
      rintro ⟨⟨m, fault⟩, r₂, k₃⟩ sh₃ ⟨h₃, hdry, hback⟩
      dsimp only at h₃ hdry hback ⊢
      cases fault with
      | some e =>
        exact ⟨h₃, .of_relieved ((hback nofun).quiet nofun) hsees⟩
      | none =>
        obtain ⟨hnil, hlatched⟩ := hdry rfl
        refine Act.meets_bind.mpr ((h₃.concludeTransfer hnil hlatched).imp ?_)
        rintro ⟨fault, r'⟩ sh₄ ⟨h₄, hcleared, hend⟩
        refine ⟨h₄, .of_relieved (fun _ hends => hend (hends.resolve_left ?_)) hsees⟩
        rw [hcleared]
        nofun

end Stocked

/-! ## Every call that hands out bytes -/

/-- The calls that hand out bytes and are done with them. -/
def Task.HandsOut : Task κ → Prop
  | .op (.read _) | .op .readByte | .op (.readBytes _) | .op (.readString _) | .op .fillBuf
  | .op (.consume _) | .writeTo _ => True
  | _ => False

/-- The result tells of the end of the stream: it is reported, no bytes are shown, or
everything was moved. -/
def Result.TellsEnd : Result κ → Prop
  | .outcome (.reading g) => g.fault = some .eof
  | .outcome (.byte b) => b = .error .eof
  | .outcome (.passage p) => p.fault = some .eof
  | .outcome (.text t) => t.2 = some .eof
  | .outcome (.shown b) => b = .ok []
  | .moved receipt _ => receipt.fault = none
  | _ => False

/-- The call overlooks the block: the reading bypasses the buffer, there was nothing to
consume, a record ends with a piece that is not empty (whose last byte is remembered then) or
the source takes over.  A record that is returned as a text is looked at again, but by then
the end of the stream has been taken, unless the record is complete. -/
def Overlooks [BulkSource σ] [ByteSink κ] (r : Reader σ) (sh : Shared) :
    Task κ → Result κ → Reader σ → Prop
  | .op (.read room), _, _ => r.Bypasses room
  | .op (.readBytes _), _, r' => r'.lastByte ≠ none
  | .op (.readString _), .outcome (.text t), r' => t.2 ≠ none ∧ r'.lastByte ≠ none
  | .op (.consume _), _, _ => r.window.unread = []
  | .writeTo k, _, _ => r.TakesOver k sh ∧ (r.window.unread = [] ∨ r.fault ≠ some .eof)
  | _, _, _ => False

/-- The pool of the reader is in order and has a free slot.  The blocks of the reader are
canonical ones, the one that it holds among them. -/
structure Lendable (r : Reader σ) (sh : Shared) : Prop where
  present : r.pool < sh.pools.length
  wf : (sh.pool r.pool).WF
  free : (sh.pool r.pool).available < (sh.pool r.pool).config.maxIdle
  size_le : r.size ≤ (sh.pool r.pool).config.bufferSize
  held_eq : ∀ length, r.held = some length → length = (sh.pool r.pool).config.bufferSize

theorem Lendable.stocked (h : r.Lendable sh) :
    r.Stocked r.pool (sh.pool r.pool).config ((sh.pool r.pool).available + r.lent) sh where
  pool_eq := rfl
  size_le := h.size_le
  held_eq := h.held_eq
  roomy := by
    have hfree := h.free
    have hlent := r.lent_le
    omega
  stock := ⟨_, ⟨h.present, rfl, h.wf, rfl⟩, Nat.le_refl _, Nat.le_max_left ..⟩

/-- With nothing unread the byte remembered can be pushed back, with a block or without. -/
theorem unreadByte_of_drained {b : UInt8} (hunread : r.window.unread = [])
    (hlast : r.lastByte = some b) (sh : Shared) :
    r.unreadByte.Returns sh fun (u, r') _ => u = .ok () ∧ r'.window.unread = [b] := by
  refine (unreadByte_meets r).imp ?_
  rintro ⟨u, r'⟩ sh' hu
  cases hu with
  | nothing hnone => rw [hlast] at hnone; cases hnone
  | restarted hbyte =>
    rw [hlast] at hbyte
    cases hbyte
    exact ⟨rfl, rfl⟩
  | stuck _ hne => exact absurd hunread hne
  | moved _ hne => exact absurd hunread hne

variable [BulkSource σ] [ByteSink κ]

/-- **What a call does with the block**, whichever it is. -/
theorem Stocked.execute [AloofBulk pool σ] [HonestSource (fun _ => True) σ] [AloofSink pool κ]
    (hwf : r.WF) (h : r.Stocked pool config total sh) (task : Task κ) (htask : task.HandsOut) :
    (execute task r).IfEnds sh fun a sh' => a.2.Stocked pool config total sh' ∧
      r.GivesBack a.1.TellsEnd (r.Overlooks sh task a.1 a.2) a.2 := by
  cases task with
  | op op =>
    refine Act.meets_bind.mpr ?_
    cases op with
    | read room => exact Act.meets_bind.mpr (h.read room)
    | readByte => exact Act.meets_bind.mpr h.readByte
    | readBytes delim => exact Act.meets_bind.mpr (h.readBytes hwf delim)
    | readString delim => exact Act.meets_bind.mpr (h.readString hwf delim)
    | fillBuf => exact Act.meets_bind.mpr (h.fillBuf hwf)
    | consume n => exact Act.meets_bind.mpr (h.consume n)
    | _ => exact htask.elim
  | writeTo k => exact Act.meets_bind.mpr (h.writeTo hwf k)

/-- **A drained reader gives its block back, unless the call overlooks it.**  In every
reachable state of a reader whose blocks are canonical ones of a pool with a free slot, over
any honest source and into any honest sink that leave the stock of that pool alone: a call
that hands out bytes, leaves nothing unread and told of the end of the stream, or leaves it
latched, leaves the reader without a block and the pool with one idle block more if the
reader held one.  If the call overlooks the block, a reader that held one still holds it, and
the pool has no block more.  Either way the byte remembered can be pushed back. -/
theorem drained_gives_back [HonestSource (· = Halt.exhausted) σ] [History σ]
    [BulkHistory (· = Halt.exhausted) σ] [Keeping κ] [HonestSink (· = Halt.exhausted) κ]
    (hr : r.Reachable) [AloofBulk r.pool σ] [AloofSink r.pool κ] (h : r.Lendable sh)
    (task : Task κ) (htask : task.HandsOut) :
    (execute task r).Keeps sh fun (result, r') sh' =>
      r'.window.unread = [] → r'.fault = some .eof ∨ result.TellsEnd →
        (¬ r.Overlooks sh task result r' → r'.held = none ∧ (r.held ≠ none →
          (sh'.pool r.pool).available = (sh.pool r.pool).available + 1)) ∧
        (r.Overlooks sh task result r' → r.held ≠ none → r'.held ≠ none ∧
          (sh'.pool r.pool).available = (sh.pool r.pool).available) ∧
        ∀ b, r'.lastByte = some b → r'.unreadByte.Returns sh' fun (u, r'') _ =>
          u = .ok () ∧ r''.window.unread = [b] := by
  have : HonestSource (fun _ => True) σ := .mono (H := (· = Halt.exhausted)) fun _ _ => trivial
  have hdone := h.stocked.execute hr.wf task htask
  refine ((execute_meets (H := (· = Halt.exhausted)) rfl task hr.wf).and_ifEnds hdone).imp ?_
  rintro ⟨result, r'⟩ sh' ⟨-, h', hback⟩ hunread hends
  have hcount : r.held ≠ none →
      (sh'.pool r.pool).available + r'.lent = (sh.pool r.pool).available + 1 := by
    intro hheld
    have htotal := h'.available_eq (by rw [lent_of_ne_none hheld]; exact Nat.succ_pos _)
    rwa [lent_of_ne_none hheld] at htotal
  refine ⟨fun hsees => ?_, fun hover hheld => ?_, fun b hlast => ?_⟩
  · have hnone := hback.relieved hsees hunread hends
    refine ⟨hnone, fun hheld => ?_⟩
    rw [← hcount hheld, lent_of_none hnone]
    rfl
  · have hstill := hback.kept hover hheld
    have hsum := hcount hheld
    rw [lent_of_ne_none hstill] at hsum
    exact ⟨hstill, Nat.succ.inj hsum⟩
  · exact unreadByte_of_drained hunread hlast sh'

/-- Three letters, which come with the end of the stream. -/
def threeLetters : Traced Script.Truthful :=
  .start { source := { items := [.piece [0x61, 0x62, 0x63] (some .eof)] } }

/-- A reader of three letters and its pool, after the first letter was peeked at. -/
def threeLettersPeeked : Reader (Traced Script.Truthful) × Shared :=
  let start := withCapacity threeLetters 16 0
  match perform (.peek 1) start { pools := [.create {}], patience := 2 } with
  | .ok (_, r) sh => (r, sh)
  | .error _ sh => (start, sh)

theorem reachable_threeLettersPeeked : threeLettersPeeked.1.Reachable := by
  have hrun : execute (.op (.peek 1) : Task MemorySink) (withCapacity threeLetters 16 0)
      { pools := [.create {}], patience := 2 } =
      .ok (.outcome (.passage ⟨[0x61], none⟩), threeLettersPeeked.1) threeLettersPeeked.2 := rfl
  exact .step (.start threeLetters 16 0) hrun

theorem lendable_threeLettersPeeked : threeLettersPeeked.1.Lendable threeLettersPeeked.2 where
  present := Nat.zero_lt_one
  wf := (Pool.WF.create {}).acquire 16
  free := by decide
  size_le := by decide
  held_eq _ h := (Option.some.inj h).symm

/-- Read up to the last of them, the letters are a whole record, and the block goes back. -/
theorem drained_gives_back_threeLetters :
    ∃ r' sh', execute (.op (.readString 0x63) : Task MemorySink) threeLettersPeeked.1
        threeLettersPeeked.2 = .ok (.outcome (.text ("abc", none)), r') sh' ∧
      r'.held = none ∧ (sh'.pool 0).available = (threeLettersPeeked.2.pool 0).available + 1 ∧
      r'.unreadByte.Returns sh' fun (u, r'') _ => u = .ok () ∧ r''.window.unread = [0x63] := by
  obtain ⟨hsees, -, hlast⟩ := (drained_gives_back reachable_threeLettersPeeked
    lendable_threeLettersPeeked (.op (.readString 0x63) : Task MemorySink) trivial).of_ok rfl rfl
      (.inl rfl)
  obtain ⟨hnone, hmore⟩ := hsees fun hover => hover.1 rfl
  exact ⟨_, _, rfl, hnone, hmore nofun, hlast 0x63 rfl⟩

/-- Read up to a letter that does not come, they are a record that takes the end of the
stream, and the block stays. -/
theorem threeLetters_overlooked :
    threeLettersPeeked.1.Reachable ∧ threeLettersPeeked.1.Lendable threeLettersPeeked.2 ∧
      ∃ r' sh', execute (.op (.readString newline) : Task MemorySink) threeLettersPeeked.1
          threeLettersPeeked.2 = .ok (.outcome (.text ("abc", some .eof)), r') sh' ∧
        r'.window.unread = [] ∧ threeLettersPeeked.1.held = some 4096 ∧ r'.held = some 4096 ∧
        (sh'.pool 0).available = (threeLettersPeeked.2.pool 0).available :=
  ⟨reachable_threeLettersPeeked, lendable_threeLettersPeeked, _, _, rfl, rfl, rfl, rfl, rfl⟩

end Reader

end BufferedStream
