import BufferedStream.Pool.Basic

/-!
# The books of a pool

A pool counts what it does.  This file keeps a second set of books beside it, from
the requests alone (`Ledger`), and proves that after any run of requests,
returns and clearances the two agree, whatever the pool was told and whatever
blocks were offered to it (`run_books`).

* **No block is lost.**  What lies idle, what was handed out again and what was
  dropped by a clearance is what was made in advance and what was taken back
  (`Books.idle`).
* **No byte leaks.**  Every idle block is all zero and of the canonical length
  (`WF.zeroed`), so every block that is handed out is all zero too, and of a
  length that depends on the request alone.
* **A block that is turned away is left alone.**  The owner gets back the block
  that it offered, and the pool counts the refusal and does nothing else.
-/

namespace BufferedStream

/-- The length of the block that answers a request. -/
def PoolConfig.granted (config : PoolConfig) (capacity : Nat) : Nat :=
  if capacity ≤ config.bufferSize then config.bufferSize else capacity

namespace Pool

/-! ## Well-formed pools -/

/-- A pool keeps no more blocks than it may, each of the canonical length and
all zero. -/
structure WF (p : Pool) : Prop where
  available_le : p.available ≤ p.config.maxIdle
  zeroed : ∀ b ∈ p.idle, b.bytes = List.replicate p.config.bufferSize 0

theorem WF.create (config : PoolConfig) : (create config).WF where
  available_le := by
    simp only [available, Pool.create, List.length_replicate]
    omega
  zeroed b hb := by
    have hzero : b = Block.zero config.bufferSize := List.eq_of_mem_replicate hb
    rw [hzero, Block.bytes_zero]
    rfl

@[simp] theorem config_acquire (capacity : Nat) (p : Pool) :
    (p.acquire capacity).2.config = p.config := by
  unfold acquire
  split
  · split <;> rfl
  · rfl

@[simp] theorem config_release (b : Block) (p : Pool) : (p.release b).2.config = p.config := by
  unfold release
  split <;> rfl

variable {p : Pool}

/-- The block that answers a request is all zero. -/
theorem WF.bytes_acquire (h : p.WF) (capacity : Nat) :
    (p.acquire capacity).1.bytes = List.replicate (p.config.granted capacity) 0 := by
  unfold acquire PoolConfig.granted
  by_cases hc : capacity ≤ p.config.bufferSize
  · rw [if_pos hc, if_pos hc]
    cases hidle : p.idle with
    | nil => exact Block.bytes_zero _
    | cons b rest => exact h.zeroed b (by simp [hidle])
  · rw [if_neg hc, if_neg hc]
    exact Block.bytes_zero _

theorem WF.length_acquire (h : p.WF) (capacity : Nat) :
    (p.acquire capacity).1.length = p.config.granted capacity := by
  rw [← Block.length_bytes, h.bytes_acquire, List.length_replicate]

theorem WF.acquire (h : p.WF) (capacity : Nat) : (p.acquire capacity).2.WF := by
  obtain ⟨hle, hzero⟩ := h
  unfold Pool.acquire
  by_cases hc : capacity ≤ p.config.bufferSize
  · rw [if_pos hc]
    cases hidle : p.idle with
    | nil => exact ⟨by simp [available], by simp⟩
    | cons b rest =>
      have hrest : rest.length + 1 ≤ p.config.maxIdle := by simpa [available, hidle] using hle
      refine ⟨by simp only [available]; omega, fun c hc => hzero c ?_⟩
      exact hidle ▸ List.mem_cons_of_mem b hc
  · rw [if_neg hc]
    exact ⟨hle, hzero⟩

/-- A pool takes a block exactly if it is of the canonical length and there is
room for it. -/
theorem admits_iff (b : Block) :
    p.admits b.length = true ↔
      b.length = p.config.bufferSize ∧ p.available < p.config.maxIdle := by
  simp only [admits, available, Bool.and_eq_true, beq_iff_eq, decide_eq_true_eq]

theorem WF.release (h : p.WF) (b : Block) : (p.release b).2.WF := by
  obtain ⟨hle, hzero⟩ := h
  unfold Pool.release
  by_cases hb : p.admits b.length = true
  · rw [if_pos hb]
    obtain ⟨hlength, hroom⟩ := (admits_iff b).mp hb
    refine ⟨by simp only [available, List.length_append] at hroom ⊢; exact hroom, ?_⟩
    intro c hc
    rcases List.mem_append.mp hc with hc | hc
    · exact hzero c hc
    · -- the block itself, whatever was in it
      rw [List.mem_singleton.mp hc, Block.bytes_zero, hlength]
  · rw [if_neg hb]
    exact ⟨hle, hzero⟩

theorem WF.clear (p : Pool) : p.clear.WF := ⟨Nat.zero_le _, by simp [Pool.clear]⟩

/-! ## Runs -/

/-- What may be asked of a pool. -/
inductive Op where
  /-- A block of at least so many bytes is asked for. -/
  | acquire (capacity : Nat)
  /-- A block is offered, be it one of the pool's own or not. -/
  | release (b : Block)
  /-- Every idle block is to be dropped. -/
  | clear

/-- The pool after it was asked. -/
def perform (p : Pool) : Op → Pool
  | .acquire capacity => (p.acquire capacity).2
  | .release b => (p.release b).2
  | .clear => p.clear

/-- What was asked of a pool so far, as someone outside counts it. -/
structure Ledger where
  acquires : Nat := 0
  releases : Nat := 0
  /-- The blocks that clearances dropped. -/
  dropped : Nat := 0

/-- The ledger after the pool `p` was asked once more. -/
def Ledger.enter (l : Ledger) (p : Pool) : Op → Ledger
  | .acquire _ => { l with acquires := l.acquires + 1 }
  | .release _ => { l with releases := l.releases + 1 }
  | .clear => { l with dropped := l.dropped + p.available }

/-- A new pool after a run, and the ledger of the run. -/
def run (config : PoolConfig) (ops : List Op) : Ledger × Pool :=
  ops.foldl (fun (l, p) op => (l.enter p op, p.perform op)) ({}, create config)

/-- The counters of a pool agree with the ledger kept beside it. -/
structure Books (config : PoolConfig) (l : Ledger) (p : Pool) : Prop where
  config_eq : p.config = config
  wf : p.WF
  /-- Every request is counted. -/
  acquires : p.counters.acquired = l.acquires
  /-- Every request is served by an idle block or by a new one. -/
  served : p.counters.acquired = p.counters.reused + p.counters.allocated
  /-- Every return is accepted or refused. -/
  releases : p.counters.released + p.counters.discarded = l.releases
  /-- Where the blocks are that were made in advance or taken back. -/
  idle : p.available + p.counters.reused + l.dropped =
    min config.minIdle config.maxIdle + p.counters.released

variable {config : PoolConfig} {l : Ledger}

theorem Books.create (config : PoolConfig) : Books config {} (Pool.create config) where
  config_eq := rfl
  wf := WF.create config
  acquires := rfl
  served := rfl
  releases := rfl
  idle := by simp [available, Pool.create]

/-- A request is counted once, as one served by an idle block or by a new one. -/
theorem Books.acquire (h : Books config l p) (capacity : Nat) :
    Books config { l with acquires := l.acquires + 1 } (p.acquire capacity).2 := by
  obtain ⟨hconfig, hwf, hacquires, hserved, hreleases, hidle⟩ := h
  have hwf' := hwf.acquire capacity
  unfold Pool.acquire at hwf' ⊢
  by_cases hc : capacity ≤ p.config.bufferSize
  · rw [if_pos hc] at hwf' ⊢
    cases hlist : p.idle with
    | nil =>
      rw [hlist] at hwf'
      refine ⟨hconfig, hwf', ?_, ?_, hreleases, ?_⟩ <;>
        simp only [PoolCounters.countNew, available, hlist] at hidle ⊢ <;> omega
    | cons b rest =>
      rw [hlist] at hwf'
      refine ⟨hconfig, hwf', ?_, ?_, hreleases, ?_⟩ <;>
        simp only [PoolCounters.countReuse, available, hlist, List.length_cons] at hidle ⊢ <;> omega
  · rw [if_neg hc] at hwf' ⊢
    refine ⟨hconfig, hwf', ?_, ?_, hreleases, hidle⟩ <;>
      simp only [PoolCounters.countNew] <;> omega

/-- A return is counted once, as accepted or as refused. -/
theorem Books.release (h : Books config l p) (b : Block) :
    Books config { l with releases := l.releases + 1 } (p.release b).2 := by
  obtain ⟨hconfig, hwf, hacquires, hserved, hreleases, hidle⟩ := h
  have hwf' := hwf.release b
  unfold Pool.release at hwf' ⊢
  by_cases hb : p.admits b.length = true
  · rw [if_pos hb] at hwf' ⊢
    refine ⟨hconfig, hwf', hacquires, hserved, ?_, ?_⟩ <;>
      simp only [PoolCounters.countRelease, available, List.length_append, List.length_singleton]
        at hidle ⊢ <;> omega
  · rw [if_neg hb] at hwf' ⊢
    refine ⟨hconfig, hwf', hacquires, hserved, ?_, hidle⟩
    simp only [PoolCounters.countDiscard]
    omega

/-- What a clearance drops is what lay idle. -/
theorem Books.clear (h : Books config l p) :
    Books config { l with dropped := l.dropped + p.available } p.clear := by
  obtain ⟨hconfig, hwf, hacquires, hserved, hreleases, hidle⟩ := h
  refine ⟨hconfig, WF.clear p, hacquires, hserved, hreleases, ?_⟩
  simp only [Pool.clear, available, List.length_nil] at hidle ⊢
  omega

theorem Books.perform (h : Books config l p) (op : Op) :
    Books config (l.enter p op) (p.perform op) := by
  cases op with
  | acquire capacity => exact h.acquire capacity
  | release b => exact h.release b
  | clear => exact h.clear

/-- By induction on what is asked: the books agree after every run. -/
theorem Books.run (config : PoolConfig) (ops : List Op) :
    Books config (run config ops).1 (run config ops).2 := by
  suffices ∀ (l : Ledger) (p : Pool), Books config l p →
      Books config (ops.foldl (fun (l, p) op => (l.enter p op, p.perform op)) (l, p)).1
        (ops.foldl (fun (l, p) op => (l.enter p op, p.perform op)) (l, p)).2 from
    this {} (Pool.create config) (Books.create config)
  induction ops with
  | nil => exact fun l p h => h
  | cons op ops ih => exact fun l p h => ih (l.enter p op) (p.perform op) (h.perform op)

/-- **A pool keeps its books over every run.**  Whatever the pool is told and
whatever is asked of it, in any order and with any blocks: its counters agree
with the ledger, it keeps no more blocks than it may, and these are canonical
and all zero; the next block that it hands out is all zero and as long as the
request and the configuration say; and the next block that is offered is taken
exactly if it is canonical and there is room, or else comes back as it was, with
nothing changed but the count of refusals. -/
theorem run_books (config : PoolConfig) (ops : List Op) :
    Books config (run config ops).1 (run config ops).2 ∧
    (∀ capacity, ((run config ops).2.acquire capacity).1.bytes =
      List.replicate (if capacity ≤ config.bufferSize then config.bufferSize else capacity) 0) ∧
    ∀ b, if b.length = config.bufferSize ∧ (run config ops).2.available < config.maxIdle then
        ((run config ops).2.release b).1 = none
      else
        (run config ops).2.release b = (some b, { (run config ops).2 with
          counters := { (run config ops).2.counters with
            discarded := (run config ops).2.counters.discarded + 1 } }) := by
  have hbooks := Books.run config ops
  generalize (run config ops).1 = l, (run config ops).2 = p at hbooks ⊢
  obtain rfl := hbooks.config_eq
  refine ⟨hbooks, hbooks.wf.bytes_acquire, fun b => ?_⟩
  unfold Pool.release
  by_cases hb : b.length = p.config.bufferSize ∧ p.available < p.config.maxIdle
  · rw [if_pos hb, if_pos ((admits_iff b).mpr hb)]
  · rw [if_neg hb, if_neg fun hadmits => hb ((admits_iff b).mp hadmits)]
    rfl

/-- Blocks made in advance, up to the most that may be kept; a dirty block goes
in and a zeroed one comes out, and one too many is turned away. -/
example :
    let (l, p) := run { bufferSize := 4, maxIdle := 2, minIdle := 5 }
      [.acquire 3, .release (Block.filled 4 7), .release (Block.filled 4 7), .acquire 9, .clear]
    (l.acquires, l.releases, l.dropped, p.available) = (2, 2, 2, 0) ∧
      p.counters = ⟨2, 1, 1, 1, 1⟩ := by
  decide

end Pool

end BufferedStream
