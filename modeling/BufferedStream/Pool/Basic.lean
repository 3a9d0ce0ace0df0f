import BufferedStream.Pool.Block

/-!
# Pools of idle blocks

A pool hands out blocks and takes them back.  It keeps idle blocks of one canonical length only, at
most a fixed number of them, and zeroes each before it is kept.  A request up to the canonical length
is served by a canonical block, a larger one by a block of exactly the requested length.  Neither
side can fail: an empty pool makes a new block, and a full pool leaves the block with its owner.
-/

namespace BufferedStream

/-- The canonical length of a pool that is not told otherwise. -/
def defaultBufferSize : Nat := 4096

/-- The number of idle blocks kept by a pool that is not told otherwise. -/
def defaultMaxIdle : Nat := 8

/-- What a pool is told. -/
structure PoolConfig where
  /-- The canonical length. -/
  bufferSize : Nat := defaultBufferSize
  /-- The most blocks kept idle; with none the pool keeps nothing. -/
  maxIdle : Nat := defaultMaxIdle
  /-- The blocks made in advance. -/
  minIdle : Nat := 0
  deriving DecidableEq, Repr, Inhabited

/-- What a pool has done so far. -/
structure PoolCounters where
  /-- Requests. -/
  acquired : Nat := 0
  /-- Requests served by an idle block. -/
  reused : Nat := 0
  /-- Requests served by a new block. -/
  allocated : Nat := 0
  /-- Blocks taken back and kept. -/
  released : Nat := 0
  /-- Blocks turned away. -/
  discarded : Nat := 0
  deriving DecidableEq, Repr, Inhabited

namespace PoolCounters

/-- Count a request served by an idle block. -/
def countReuse (c : PoolCounters) : PoolCounters :=
  { c with acquired := c.acquired + 1, reused := c.reused + 1 }

/-- Count a request served by a new block. -/
def countNew (c : PoolCounters) : PoolCounters :=
  { c with acquired := c.acquired + 1, allocated := c.allocated + 1 }

/-- Count a block taken back. -/
def countRelease (c : PoolCounters) : PoolCounters :=
  { c with released := c.released + 1 }

/-- Count a block turned away. -/
def countDiscard (c : PoolCounters) : PoolCounters :=
  { c with discarded := c.discarded + 1 }

end PoolCounters

/-- A pool: its configuration, the idle blocks in the order they will be handed out, and its
counters. -/
structure Pool where
  config : PoolConfig
  idle : List Block
  counters : PoolCounters := {}

namespace Pool

/-- A new pool, with the blocks it is told to make in advance. -/
def create (config : PoolConfig) : Pool where
  config
  idle := List.replicate (min config.minIdle config.maxIdle) (Block.zero config.bufferSize)

instance : Inhabited Pool := ⟨create {}⟩

/-- The number of idle blocks. -/
def available (p : Pool) : Nat := p.idle.length

/-- The pool can keep a block of this length. -/
def admits (p : Pool) (length : Nat) : Bool :=
  length == p.config.bufferSize && p.idle.length < p.config.maxIdle

/-- Hand out a block of at least `capacity` bytes. -/
def acquire (capacity : Nat) (p : Pool) : Block × Pool :=
  if capacity ≤ p.config.bufferSize then
    match p.idle with
    | b :: rest => (b, { p with idle := rest, counters := p.counters.countReuse })
    | [] =>
      (Block.zero p.config.bufferSize, { p with counters := p.counters.countNew })
  else (Block.zero capacity, { p with counters := p.counters.countNew })

/-- Take a block back: zero and keep it, or return it to its owner as it is. -/
def release (b : Block) (p : Pool) : Option Block × Pool :=
  if p.admits b.length then
    (none, { p with
      idle := p.idle ++ [Block.zero b.length], counters := p.counters.countRelease })
  else (some b, { p with counters := p.counters.countDiscard })

/-- Drop every idle block. -/
def clear (p : Pool) : Pool := { p with idle := [] }

end Pool

end BufferedStream
