import BufferedStream.Proofs.Safety.Stack

/-!
# Nothing is out of range in use

Readers and writers in use are those that any operations lead to, from new ones on,
with pools of any configurations and whatever becomes of the pools in between.  They
are in bounds, so that the next operation finds nothing out of range.  An operation
that ends with a result saw fair calls only; one that is halted on a broken contract
was halted at the call that broke it.

* `Guarded.Sheltered` — an act that is in range, and halts on a broken contract only
  at the call that broke it.
* `Reader.InUse`, `Writer.InUse` — the states that operations lead to.
* `in_use_in_range` — in all of these every operation is sheltered.
-/

namespace BufferedStream

namespace Guarded

variable {α : Type} {g : Guarded α} {m : Act α} {post : α → Prop} {sh : Shared}

/-- Started with the shared data, the act does what the guarded act does, which finds
nothing out of range; and the contract is upheld. -/
structure Sheltered (g : Guarded α) (m : Act α) (sh : Shared) : Prop where
  agree : g sh = of m sh
  in_range : ∀ sh', g sh ≠ .error .outOfRange sh'
  /-- An act that ends with a result saw fair calls only. -/
  fair_of_ok : ∀ a sh', m sh = .ok a sh' → sh.Fair sh' ∧ sh'.Tidy
  /-- So did one that ran out of patience. -/
  fair_of_exhausted : ∀ sh', m sh = .error .exhausted sh' → sh.Fair sh'
  /-- The last call before a breach broke the contract, and no other did. -/
  broken_of_breach : ∀ b sh', m sh = .error (.breach b) sh' → sh.Broken b sh' ∧ ¬ sh.Fair sh'

theorem of_ne_outOfRange (m : Act α) (sh sh' : Shared) : of m sh ≠ .error .outOfRange sh' := by
  unfold of
  cases m sh with
  | ok a sh₁ => exact fun h => nomatch h
  | error e sh₁ => exact fun h => nomatch h

theorem Safe.sheltered (h : Safe g m post) (hsh : sh.Tidy) : Sheltered g m sh := by
  refine ⟨h.eq_of sh hsh, ?_, ?_, ?_, ?_⟩
  · intro sh'
    rw [h.eq_of sh hsh]
    exact of_ne_outOfRange m sh sh'
  · intro a sh' hrun
    obtain ⟨htidy, hcalls, -⟩ := h.upholds.of_ok hsh hrun
    exact ⟨hcalls, htidy⟩
  · intro sh' hrun
    exact h.upholds.of_error hsh hrun
  · intro b sh' hrun
    have hbroken : sh.Broken b sh' := h.upholds.of_error hsh hrun
    exact ⟨hbroken, hbroken.not_fair⟩

end Guarded

/-! ## Readers in use -/

namespace Reader

variable {σ : Type} [BulkSource σ] [AnsweringSource σ]

/-- The states that tasks lead to, with sinks of any kind; pools may change in between
as long as they stay well-formed, and so may the source. -/
inductive InUse : Reader σ → Prop
  | create {s : σ} (size : Nat) (pool : PoolId) (hs : AnsweringSource.Sound s) :
      InUse (withCapacity s size pool)
  | step {κ : Type} [ByteSink κ] [AnsweringSink κ] [AnsweringTransfer σ κ] {r r' : Reader σ}
      {task : Task κ} {result : Result κ} {sh sh' : Shared} (h : InUse r) (htask : task.Secure)
      (hsh : sh.Tidy) (hrun : execute task r sh = .ok (result, r') sh') : InUse r'
  | change {r : Reader σ} {s : σ} (h : InUse r) (hs : AnsweringSource.Sound s) :
      InUse { r with source := s }

/-- By induction on the tasks. -/
theorem InUse.secure {r : Reader σ} (h : r.InUse) : r.Secure := by
  induction h with
  | create size pool hs => exact ⟨inBounds_withCapacity _ size pool, hs⟩
  | @step κ _ _ _ r r' task result sh sh' _ htask hsh hrun ih =>
    obtain ⟨-, -, -, h'⟩ := (execute_safe htask ih).upholds.of_ok hsh hrun
    exact h'
  | change _ hs ih => exact ⟨ih.inBounds, hs⟩

end Reader

/-! ## Writers in use -/

namespace Writer

variable {κ : Type} [BulkSink κ] [AnsweringSink κ]

/-- The states that operations lead to, with sources of any kind; pools may change in
between as long as they stay well-formed, and so may the sink. -/
inductive InUse : Stage κ → Prop
  | create {k : κ} {size : Nat} {pool : PoolId} {w : Writer κ} {sh sh' : Shared}
      (hk : AnsweringSink.Sound k) (hsh : sh.Tidy)
      (hrun : withCapacity k size pool sh = .ok w sh') : InUse (.writing w)
  | step {ν : Type} [ByteSource ν] [AnsweringSource ν] [AnsweringIntake κ (Traced ν)]
      {st st' : Stage κ} {op : Op ν} {outcome : Outcome ν} {sh sh' : Shared} (h : InUse st)
      (hop : op.Secure) (hsh : sh.Tidy) (hrun : perform op st sh = .ok (outcome, st') sh') :
      InUse st'
  | change {w : Writer κ} {k : κ} (h : InUse (.writing w)) (hk : AnsweringSink.Sound k) :
      InUse (.writing { w with sink := k })

/-- By induction on the operations. -/
theorem InUse.secure {st : Stage κ} (h : InUse st) : st.Secure := by
  induction h with
  | @create k size pool w sh sh' hk hsh hrun =>
    obtain ⟨-, -, hfresh, -⟩ := (withCapacity_upholds k size pool).of_ok hsh hrun
    exact ⟨hfresh.inBounds, by rw [hfresh.sink]; exact hk⟩
  | @step ν _ _ _ st st' op outcome sh sh' _ hop hsh hrun ih =>
    obtain ⟨-, -, h'⟩ := (perform_safe hop ih).upholds.of_ok hsh hrun
    exact h'
  | change _ hk ih => exact ⟨ih.inBounds, hk⟩

end Writer

/-! ## In range -/

/-- **In use everything is in range.**  With pools of any configurations, and over sources
and sinks that may report whatever they like, readers and writers stay in bounds and
every operation is sheltered: as long as calls are fair no contract halts it, and a call
that is not fair does so then and there. -/
theorem in_use_in_range (configs : List PoolConfig) :
    Shared.Tidy { pools := configs.map Pool.create } ∧
    (∀ (σ : Type) [BulkSource σ] [AnsweringSource σ] (r : Reader σ), r.InUse →
      r.lo ≤ r.hi ∧ r.InBounds ∧
        ∀ (κ : Type) [ByteSink κ] [AnsweringSink κ] [AnsweringTransfer σ κ]
          (task : Reader.Task κ), task.Secure → ∀ sh : Shared, sh.Tidy →
            Guarded.Sheltered (Reader.Checked.execute task r) (Reader.execute task r) sh) ∧
    (∀ (κ : Type) [BulkSink κ] [AnsweringSink κ] (st : Writer.Stage κ), Writer.InUse st →
      (∀ w, st = .writing w → w.InBounds) ∧
        ∀ (ν : Type) [ByteSource ν] [AnsweringSource ν] [AnsweringIntake κ (Traced ν)]
          (op : Writer.Op ν), op.Secure → ∀ sh : Shared, sh.Tidy →
            Guarded.Sheltered (Writer.Checked.perform op st) (Writer.perform op st) sh) := by
  refine ⟨Shared.tidy_create configs, ?_, ?_⟩
  · intro σ _ _ r hr
    refine ⟨Reader.lo_le_hi r, hr.secure.inBounds, ?_⟩
    intro κ _ _ _ task htask sh hsh
    exact (Reader.execute_safe htask hr.secure).sheltered hsh
  · intro κ _ _ st hst
    refine ⟨?_, ?_⟩
    · rintro w rfl
      exact hst.secure.inBounds
    · intro ν _ _ _ op hop sh hsh
      exact (Writer.perform_safe hop hst.secure).sheltered hsh

/-! ## A source and a sink that report too much -/

section Boasting

open Endpoint

/-- The only pool keeps nothing, and its blocks are empty. -/
def bareShared : Shared := { pools := [⟨0, 0, 0⟩].map Pool.create }

/-- The pool has been asked for a block, and the calls have been noted. -/
def askedShared (journal : Array Call) : Shared where
  pools := [{ config := ⟨0, 0, 0⟩, idle := [], counters := { acquired := 1, allocated := 1 } }]
  journal

/-- The first of the two bytes that the source had has been read; asked for more, it
claims three more than there is room for. -/
def boastedReader : Reader Source where
  source := .ofBasic (.script { items := [.claim 3] })
  size := 16
  pool := 0
  window := { past := [0x61], unread := [0x62] }
  held := some 16
  lastByte := some 0x61

theorem inUse_boastedReader : boastedReader.InUse := by
  have hrun : Reader.execute (.op .readByte : Reader.Task Sink)
      (.withCapacity (.ofBasic (.script { items := [.piece [0x61, 0x62] none, .claim 3] })) 0 0)
      bareShared =
        .ok (.outcome (.byte (.ok 0x61)), boastedReader) (askedShared #[.read 16 2 none]) := rfl
  have htask : Reader.Task.Secure (.op .readByte : Reader.Task Sink) := trivial
  exact .step (.create 0 0 rfl) htask (Shared.tidy_create [⟨0, 0, 0⟩]) hrun

/-- A byte is queued; the sink will claim to have taken three more. -/
def boastedWriter : Writer Sink where
  sink := .ofBasic (.script { items := [.claim 3] })
  size := 1
  pool := 0
  queued := [0x61]
  held := some 1

theorem inUse_boastedWriter : Writer.InUse (.writing boastedWriter) := by
  have hnew : Writer.withCapacity boastedWriter.sink 0 0 bareShared =
      .ok { boastedWriter with queued := [], held := none } bareShared := rfl
  have hrun : Writer.perform (.write [0x61] : Writer.Op Source)
      (.writing { boastedWriter with queued := [], held := none }) bareShared =
        .ok (.receipt ⟨1, none⟩, .writing boastedWriter) (askedShared #[]) := rfl
  have hop : Writer.Op.Secure (.write [0x61] : Writer.Op Source) := trivial
  have htidy := Shared.tidy_create [⟨0, 0, 0⟩]
  exact .step (.create rfl htidy hnew) hop htidy hrun

/-- Reader and writer are halted at the call that claims too much; nothing was out of
range. -/
theorem in_use_in_range_boasting :
    (∃ sh, Reader.execute (.op (.peek 16) : Reader.Task Sink) boastedReader bareShared =
        .error (.breach (.sourceOverrun 18 15)) sh ∧
      bareShared.Broken (.sourceOverrun 18 15) sh ∧ boastedReader.InBounds ∧
      ∀ sh', Reader.Checked.execute (.op (.peek 16) : Reader.Task Sink) boastedReader bareShared ≠
        .error .outOfRange sh') ∧
    (∃ sh, Writer.perform (.flush : Writer.Op Source) (.writing boastedWriter) bareShared =
        .error (.breach (.sinkOverrun 4 1)) sh ∧
      bareShared.Broken (.sinkOverrun 4 1) sh ∧ boastedWriter.InBounds ∧
      ∀ sh', Writer.Checked.perform (.flush : Writer.Op Source) (.writing boastedWriter)
        bareShared ≠ .error .outOfRange sh') := by
  obtain ⟨htidy, hreader, hwriter⟩ := in_use_in_range [⟨0, 0, 0⟩]
  refine ⟨?_, ?_⟩
  · obtain ⟨-, hin, htasks⟩ := hreader Source boastedReader inUse_boastedReader
    have hpeek := htasks Sink (.op (.peek 16)) trivial bareShared htidy
    have hrun : Reader.execute (.op (.peek 16) : Reader.Task Sink) boastedReader bareShared =
        .error (.breach (.sourceOverrun 18 15))
          { bareShared with journal := #[.read 15 18 none] } := rfl
    exact ⟨_, hrun, (hpeek.broken_of_breach _ _ hrun).1, hin, hpeek.in_range⟩
  · obtain ⟨hin, hops⟩ := hwriter Sink (.writing boastedWriter) inUse_boastedWriter
    have hflush := hops Source .flush trivial bareShared htidy
    have hrun : Writer.perform (.flush : Writer.Op Source) (.writing boastedWriter) bareShared =
        .error (.breach (.sinkOverrun 4 1))
          { bareShared with journal := #[.write [0x61] 4 none] } := rfl
    exact ⟨_, hrun, (hflush.broken_of_breach _ _ hrun).1, hin _ rfl, hflush.in_range⟩

end Boasting

end BufferedStream
