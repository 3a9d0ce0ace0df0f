import BufferedStream.Pool.Basic

/-!
# Figures of a pool

The share of requests served by idle blocks, and the one-line texts of a pool and of its figures.
-/

namespace BufferedStream.Pool

/-- The percentage of requests that were served by an idle block; none before the first request. -/
def hitRate (p : Pool) : Float :=
  if p.counters.acquired = 0 then 0.0
  else Float.ofNat p.counters.reused / Float.ofNat p.counters.acquired * 100.0

/-- A named record of numbers on one line. -/
def recordText (name : String) (fields : List (String × String)) : String :=
  name ++ " \x7b " ++ ", ".intercalate (fields.map fun (field, value) => field ++ ": " ++ value)
    ++ " \x7d"

/-- The configuration on one line. -/
def configText (c : PoolConfig) : String :=
  recordText "PoolConfig"
    [("buffer_size", toString c.bufferSize), ("max_pool_size", toString c.maxIdle),
     ("min_pool_size", toString c.minIdle)]

/-- The pool on one line. -/
def text (p : Pool) : String :=
  recordText "BufferPool"
    [("config", configText p.config), ("available", toString p.available)]

/-- The figures of the pool on one line. -/
def statsText (p : Pool) : String :=
  recordText "PoolStats"
    [("available", toString p.available), ("acquired", toString p.counters.acquired),
     ("reused", toString p.counters.reused), ("allocated", toString p.counters.allocated),
     ("released", toString p.counters.released), ("discarded", toString p.counters.discarded)]

end BufferedStream.Pool
