import BufferedStream.Proofs.Pool
import BufferedStream.Proofs.Script

/-!
# What a pool has in stock

A reader that borrows a block from its pool changes what the pool has in stock, and so may
anyone else who shares the pool.

* `Shared.Stock` — a pool is there, in order, and has so many idle blocks;
  `Shared.Stock.acquire` and `Shared.Stock.release` — what borrowing a block and giving it back
  make of it.
* `Act.LeavesStock` — an act that leaves as many idle blocks as it found.
* `AloofSource`, `AloofSink`, `AloofBulk` — endpoints whose acts do.
-/

namespace BufferedStream

namespace Pool

variable {p : Pool}

/-- A block that is handed out was idle if there was one. -/
theorem available_acquire {capacity : Nat} (h : capacity ≤ p.config.bufferSize) :
    (p.acquire capacity).2.available = p.available - 1 := by
  unfold acquire
  rw [if_pos h]
  cases hidle : p.idle with
  | nil => simp [available, hidle]
  | cons b rest => simp [available, hidle]

/-- A block for which there is room is idle afterwards. -/
theorem release_of_admits {b : Block} (h : p.admits b.length = true) :
    (p.release b).1 = none ∧ (p.release b).2.available = p.available + 1 := by
  unfold release
  rw [if_pos h]
  exact ⟨rfl, List.length_append⟩

end Pool

/-! ## The stock of a pool -/

/-- There is a pool at the place, told so and in order, with `n` idle blocks. -/
structure Shared.Stock (sh : Shared) (id : PoolId) (config : PoolConfig) (n : Nat) : Prop where
  present : id < sh.pools.length
  config_eq : (sh.pool id).config = config
  wf : (sh.pool id).WF
  available_eq : (sh.pool id).available = n

namespace Shared

variable {sh : Shared} {id : PoolId} {config : PoolConfig} {n : Nat}

theorem pool_withPool (h : id < sh.pools.length) (p : Pool) : (sh.withPool id p).pool id = p := by
  simp [pool, withPool, h]

namespace Stock

theorem withPool {p : Pool} (h : sh.Stock id config n) (hconfig : p.config = config) (hwf : p.WF) :
    (sh.withPool id p).Stock id config p.available where
  present := by
    rw [Shared.withPool, List.length_set]
    exact h.present
  config_eq := by rwa [pool_withPool h.present]
  wf := by rwa [pool_withPool h.present]
  available_eq := by rw [pool_withPool h.present]

/-- A block of the canonical length is borrowed, and the stock goes down if there was any. -/
theorem acquire {capacity : Nat} (h : sh.Stock id config n) (hle : capacity ≤ config.bufferSize) :
    ((sh.pool id).acquire capacity).1.length = config.bufferSize ∧
      (sh.withPool id ((sh.pool id).acquire capacity).2).Stock id config (n - 1) := by
  have hle' : capacity ≤ (sh.pool id).config.bufferSize := h.config_eq ▸ hle
  constructor
  · rw [h.wf.length_acquire, PoolConfig.granted, if_pos hle', h.config_eq]
  · rw [← h.available_eq, ← Pool.available_acquire hle']
    exact h.withPool ((Pool.config_acquire _ _).trans h.config_eq) (h.wf.acquire _)

/-- A block of the canonical length is taken back where there is room for it. -/
theorem release {b : Block} (h : sh.Stock id config n) (hlength : b.length = config.bufferSize)
    (hroom : n < config.maxIdle) :
    ((sh.pool id).release b).1 = none ∧
      (sh.withPool id ((sh.pool id).release b).2).Stock id config (n + 1) := by
  have hadmits : (sh.pool id).admits b.length = true := by
    rw [Pool.admits_iff, h.config_eq, h.available_eq]
    exact ⟨hlength, hroom⟩
  obtain ⟨hnone, hmore⟩ := Pool.release_of_admits hadmits
  refine ⟨hnone, ?_⟩
  rw [← h.available_eq, ← hmore]
  exact h.withPool ((Pool.config_release _ _).trans h.config_eq) (h.wf.release _)

end Stock

end Shared

/-! ## Acts that leave the stock alone -/

namespace Act

variable {α β : Type} {m : Act α}

/-- The act leaves as many idle blocks in the pool as it finds. -/
def LeavesStock (id : PoolId) (m : Act α) : Prop :=
  ∀ config n sh, Shared.Stock sh id config n →
    IfEnds m sh fun _ sh' => sh'.Stock id config n

theorem leavesStock_pure {id : PoolId} (a : α) : LeavesStock id (pure a : Act α) :=
  fun _ _ _ h => h

theorem LeavesStock.bind {id : PoolId} {f : α → Act β} (h : LeavesStock id m)
    (hf : ∀ a, LeavesStock id (f a)) : LeavesStock id (m >>= f) := fun config n sh hstock =>
  meets_bind.mpr ((h config n sh hstock).imp fun a sh' hstock' => hf a config n sh' hstock')

end Act

/-! ## Aloof endpoints -/

/-- A source whose calls leave a pool as many idle blocks as they find. -/
class AloofSource (id : PoolId) (σ : Type) [ByteSource σ] : Prop where
  read_aloof (s : σ) (room : Room) : Act.LeavesStock id (ByteSource.read s room)

/-- A sink whose calls leave a pool as many idle blocks as they find. -/
class AloofSink (id : PoolId) (κ : Type) [ByteSink κ] : Prop where
  write_aloof (k : κ) (b : Bytes) : Act.LeavesStock id (ByteSink.write k b)

/-- A source that does so when it is emptied in bulk as well. -/
class AloofBulk (id : PoolId) (σ : Type) [BulkSource σ] : Prop extends AloofSource id σ where
  writeTo_aloof {κ : Type} [ByteSink κ] [AloofSink id κ] (s : σ) (k : κ) :
    Act.LeavesStock id (BulkSource.writeTo s k)

section Aloof

variable {id : PoolId} {σ κ : Type}

instance [BulkSource σ] [Bulkless σ] [AloofSource id σ] : AloofBulk id σ where
  writeTo_aloof s k := by
    rw [Bulkless.writeTo_eq]
    exact Act.leavesStock_pure _

instance : AloofSink id MemorySink where
  write_aloof _ _ := Act.leavesStock_pure _

instance [ByteSink κ] [AloofSink id κ] : AloofSink id (Tap κ) where
  write_aloof t b := (AloofSink.write_aloof t.sink b).bind fun _ => Act.leavesStock_pure _

instance [ByteSource σ] [AloofSource id σ] : AloofSource id (Traced σ) where
  read_aloof t room := (AloofSource.read_aloof t.source room).bind fun _ => Act.leavesStock_pure _

instance [BulkSource σ] [AloofBulk id σ] : AloofBulk id (Traced σ) where
  writeTo_aloof t k :=
    (AloofBulk.writeTo_aloof t.source { sink := k : Tap _ }).bind fun _ => Act.leavesStock_pure _

instance : AloofBulk id Script.Truthful where
  read_aloof _ _ := Act.leavesStock_pure _
  writeTo_aloof t k := by
    show Act.LeavesStock id (t.writeTo k)
    unfold Script.Truthful.writeTo
    split
    · exact Act.leavesStock_pure _
    · exact (AloofSink.write_aloof _ _).bind fun _ => Act.leavesStock_pure _

end Aloof

end BufferedStream
