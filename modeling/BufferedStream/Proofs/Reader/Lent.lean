import BufferedStream.Proofs.Reader.Pull
import BufferedStream.Proofs.Stock

/-!
# The block that a reader has borrowed

A reader borrows one block at most, and while it uses a pool that nobody else uses, what the
pool has in stock and what the reader has borrowed always make up the same number of blocks.
The exception is a pool that had none, which makes one.

* `Reader.Stocked` — the account of reader and pool.
* `Reader.Relieved` — the block is no longer with the reader once the stream has ended.
* `Reader.Stocked.acquire`, `Reader.Stocked.settle` — taking a block and handing it back; at
  the end of the stream, with nothing unread, the pool has room for it.
* `Reader.Stocked.fill`, `Reader.Stocked.ensure`, `Reader.Stocked.readOnce` — the account
  stays in order whatever comes of the calls on the source.
-/

namespace BufferedStream

namespace Reader

variable {σ : Type} {r r' : Reader σ} {pool : PoolId} {config : PoolConfig} {total : Nat}
  {sh : Shared}

/-- The number of blocks that the reader has borrowed. -/
def lent (r : Reader σ) : Nat := if r.held = none then 0 else 1

theorem lent_of_none (h : r.held = none) : r.lent = 0 := if_pos h

theorem lent_of_ne_none (h : r.held ≠ none) : r.lent = 1 := if_neg h

theorem lent_le (r : Reader σ) : r.lent ≤ 1 := by
  unfold lent
  split
  · exact Nat.zero_le 1
  · exact Nat.le_refl 1

/-- The reader borrows canonical blocks of the pool, and between them the two have as many
blocks as at first, `total` of them; or one, if there was none.  The pool can keep them
all. -/
structure Stocked (pool : PoolId) (config : PoolConfig) (total : Nat) (r : Reader σ)
    (sh : Shared) : Prop where
  pool_eq : r.pool = pool
  size_le : r.size ≤ config.bufferSize
  held_eq : ∀ length, r.held = some length → length = config.bufferSize
  roomy : max total 1 ≤ config.maxIdle
  stock : ∃ n, sh.Stock pool config n ∧ total ≤ n + r.lent ∧ n + r.lent ≤ max total 1

/-- With nothing unread the block has gone back, if the end of the stream is latched or was
told of. -/
def Relieved (told : Prop) (r : Reader σ) : Prop :=
  r.window.unread = [] → r.fault = some .eof ∨ told → r.held = none

/-- Where nothing is told. -/
theorem Relieved.quiet {told : Prop} (h : r.Relieved False) (htold : ¬ told) :
    r.Relieved told := fun hunread hends =>
  h hunread (.inl (hends.resolve_right htold))

/-- The latched error may be told of, and then it is no longer latched. -/
theorem Relieved.cleared {told : Prop} (h : r.Relieved False)
    (htold : told → r.fault = some .eof) : r.cleared.Relieved told := by
  rintro hunread (hlatched | hends)
  · cases hlatched
  · exact h hunread (.inl (htold hends))

namespace Stocked

/-- The account concerns the block and where it comes from. -/
theorem congr (h : r.Stocked pool config total sh) (hpool : r'.pool = r.pool)
    (hsize : r'.size = r.size) (hheld : r'.held = r.held) : r'.Stocked pool config total sh where
  pool_eq := hpool.trans h.pool_eq
  size_le := hsize ▸ h.size_le
  held_eq := hheld ▸ h.held_eq
  roomy := h.roomy
  stock := by
    have hlent : r'.lent = r.lent := by rw [lent, lent, hheld]
    rw [hlent]
    exact h.stock

theorem withWindow (h : r.Stocked pool config total sh) (window : Window) :
    Stocked pool config total { r with window } sh :=
  h.congr rfl rfl rfl

theorem latch (h : r.Stocked pool config total sh) (fault : Option Error) :
    (r.latch fault).Stocked pool config total sh := by
  rw [latch_eq]
  exact h.congr rfl rfl rfl

/-- Unless there was no block at first, all of them are still there. -/
theorem available_eq (h : r.Stocked pool config total sh) (hpos : 0 < total) :
    (sh.pool pool).available + r.lent = total := by
  obtain ⟨n, hstock, hle, hge⟩ := h.stock
  rw [hstock.available_eq]
  omega

/-- What leaves the stock alone leaves the account alone. -/
theorem meanwhile {α : Type} {m : Act α} (h : r.Stocked pool config total sh)
    (hm : m.LeavesStock pool) : m.IfEnds sh fun _ sh' => r.Stocked pool config total sh' := by
  obtain ⟨n, hstock, hcount⟩ := h.stock
  refine (hm config n sh hstock).imp fun _ sh' hstock' => ?_
  exact ⟨h.pool_eq, h.size_le, h.held_eq, h.roomy, n, hstock', hcount⟩

/-! ## Taking a block and handing it back -/

/-- The reader holds a canonical block then. -/
theorem acquire (h : r.Stocked pool config total sh) :
    r.acquire.IfEnds sh fun r' sh' => r'.Stocked pool config total sh' ∧ r'.held ≠ none := by
  obtain rfl := h.pool_eq
  unfold Reader.acquire
  cases hheld : r.held with
  | some length => exact ⟨h, by rw [hheld]; exact Option.some_ne_none _⟩
  | none =>
    obtain ⟨n, hstock, hle, hge⟩ := h.stock
    obtain ⟨hlength, hstock'⟩ := hstock.acquire h.size_le
    simp only [Act.meets_bind, Act.meets_acquire, Act.meets_pure]
    refine ⟨⟨rfl, h.size_le, ?_, h.roomy, n - 1, hstock', ?_⟩, Option.some_ne_none _⟩
    · rintro _ ⟨⟩
      exact hlength
    · rw [lent_of_none hheld] at hle hge
      rw [lent_of_ne_none (Option.some_ne_none _)]
      omega

/-- There is room in the pool for the block that the reader holds. -/
theorem withoutBlock {b : Block} (h : r.Stocked pool config total sh)
    (hheld : r.held = some b.length) :
    ((sh.pool pool).release b).1 = none ∧
      r.withoutBlock.Stocked pool config total (sh.withPool pool ((sh.pool pool).release b).2) := by
  obtain ⟨n, hstock, hle, hge⟩ := h.stock
  have hlent : r.lent = 1 := lent_of_ne_none (by rw [hheld]; exact Option.some_ne_none _)
  have hroomy := h.roomy
  obtain ⟨hnone, hstock'⟩ := hstock.release (h.held_eq _ hheld) (by omega)
  refine ⟨hnone, h.pool_eq, h.size_le, nofun, h.roomy, n + 1, hstock', ?_⟩
  rw [lent_of_none rfl]
  omega

/-- **At the end of the stream, with nothing unread, the block goes back.** -/
theorem settle (h : r.Stocked pool config total sh) :
    r.settle.IfEnds sh fun r' sh' => r'.Stocked pool config total sh' ∧ r.Settles r' ∧
      r'.Relieved False := by
  have hstocked : r.settle.IfEnds sh fun r' sh' => r'.Stocked pool config total sh' ∧
      (r.window.unread = [] → r.fault = some .eof → r'.held = none) := by
    obtain rfl := h.pool_eq
    unfold Reader.settle block?
    split
    · cases hheld : r.held with
      | none => exact ⟨h, fun _ _ => hheld⟩
      | some length =>
        obtain ⟨n, hstock, -⟩ := h.stock
        obtain ⟨hnone, hback⟩ :=
          h.withoutBlock (b := Block.withFront length r.window.contents) hheld
        have hlength : (Block.withFront length r.window.contents).length =
            (sh.pool r.pool).config.bufferSize := by
          rw [hstock.config_eq]
          exact h.held_eq length hheld
        simp only [Option.map_some, Act.meets_bind, Act.meets_bufferSize]
        rw [if_pos hlength]
        simp only [Act.meets_bind, Act.meets_release, hnone]
        exact ⟨hback, fun _ _ => rfl⟩
    · rename_i hends
      refine ⟨h, fun hunread hfault => absurd ?_ hends⟩
      simp [hunread, hfault, Error.isEof]
  refine ((settle_meets r).and hstocked).imp ?_
  rintro r' sh' ⟨hs, h', hback⟩
  refine ⟨h', hs, fun hunread hends => hback (hs.unread_eq ▸ hunread) ?_⟩
  exact hs.fault_eq ▸ hends.resolve_right id

/-! ## Filling the buffer -/

variable [ByteSource σ] [AloofSource pool σ]

theorem draw (h : r.Stocked pool config total sh) (room : Room) :
    (r.draw room).IfEnds sh fun a sh' => a.2.Stocked pool config total sh' ∧
      ∃ s, a.2 = { r with source := s } := by
  refine Act.meets_bind.mpr ((h.meanwhile (AloofSource.read_aloof r.source room)).imp ?_)
  rintro ⟨g, s⟩ sh' h'
  exact Act.meets_bind.mpr (Act.ifEnds_require fun _ => ⟨h'.congr rfl rfl rfl, s, rfl⟩)

/-- By induction on the rounds. -/
theorem fillRounds (h : r.Stocked pool config total sh) (rounds : Nat) :
    (fillRounds rounds r).IfEnds sh fun r' sh' => r'.Stocked pool config total sh' ∧
      r'.held = r.held := by
  induction rounds generalizing r sh with
  | zero => exact ⟨h.latch _, by rw [latch_eq]⟩
  | succ rounds ih =>
    rw [Reader.fillRounds]
    refine Act.meets_bind.mpr ((h.draw _).imp ?_)
    rintro ⟨g, _⟩ sh' ⟨h', s, rfl⟩
    dsimp only
    split
    · exact ⟨(h'.withWindow _).latch _, by rw [latch_eq]⟩
    · exact ih (h'.withWindow _)

/-- A filling leaves the reader with a block. -/
theorem fill (h : r.Stocked pool config total sh) :
    r.fill.IfEnds sh fun r' sh' => r'.Stocked pool config total sh' ∧ r'.held ≠ none := by
  refine Act.meets_bind.mpr (h.acquire.imp ?_)
  rintro r₁ sh₁ ⟨h₁, hheld⟩
  refine ((h₁.withWindow _).fillRounds maxEmptyReads).imp ?_
  rintro r' sh' ⟨h', heq⟩
  exact ⟨h', heq ▸ hheld⟩

/-- By induction on the rounds. -/
theorem fillWhile (h : r.Stocked pool config total sh) (wanting : Bytes → Bool) (rounds : Nat) :
    (r.fillWhile wanting rounds).IfEnds sh fun r' sh' => r'.Stocked pool config total sh' := by
  induction rounds generalizing r sh with
  | zero => exact h
  | succ rounds ih =>
    rw [Reader.fillWhile]
    split
    · exact Act.meets_bind.mpr (h.fill.imp fun r₁ sh₁ h₁ => ih h₁.1)
    · exact h

theorem ensure (h : r.Stocked pool config total sh) (n : Nat) :
    (r.ensure n).IfEnds sh fun r' sh' => r'.Stocked pool config total sh' :=
  h.fillWhile _ n

theorem readOnce (h : r.Stocked pool config total sh) :
    r.readOnce.IfEnds sh fun r' sh' => r'.Stocked pool config total sh' := by
  refine Act.meets_bind.mpr (h.acquire.imp ?_)
  rintro r₁ sh₁ ⟨h₁, -⟩
  refine Act.meets_bind.mpr (((h₁.withWindow _).draw _).imp ?_)
  rintro ⟨g, _⟩ sh₂ ⟨h₂, s, rfl⟩
  exact (h₂.withWindow _).latch _

end Stocked

end Reader

end BufferedStream
