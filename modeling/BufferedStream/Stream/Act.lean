import BufferedStream.Stream.Transfer
import BufferedStream.Pool.Basic

/-!
# Acts on streams

Streams share pools of blocks.  An act (`Act`) is a computation over what streams share, which ends
with a result or is halted: a source or sink broke its contract by reporting more bytes than it was
offered, or a loop without a bound of its own ran out of patience.
-/

namespace BufferedStream

/-- A broken contract, with what was reported and what had been offered. -/
inductive Breach where
  /-- A source reported more bytes than the room it was offered. -/
  | sourceOverrun (count offered : Nat)
  /-- A sink reported more bytes than it was offered. -/
  | sinkOverrun (count offered : Nat)
  /-- A sink reported more bytes than a memory source had offered it in bulk. -/
  | bulkSinkOverrun
  /-- A source reported more bytes than a memory sink had asked of it. -/
  | bulkSourceOverrun
  deriving DecidableEq, Repr

/-- What is said about a broken contract. -/
def Breach.message : Breach → String
  | sourceOverrun count offered =>
    "bufio: source returned " ++ toString count ++ " bytes for a " ++ toString offered
      ++ " byte buffer"
  | sinkOverrun count offered =>
    "bufio: sink accepted " ++ toString count ++ " bytes of " ++ toString offered ++ " offered"
  | bulkSinkOverrun => "bufio: sink reported more bytes than offered"
  | bulkSourceOverrun => "bufio: source reported more bytes than requested"

/-- Why an act was halted. -/
inductive Halt where
  | breach (b : Breach)
  /-- A loop used up its patience. -/
  | exhausted
  deriving DecidableEq, Repr

/-- A call on an endpoint, noted when it returned. -/
inductive Call where
  /-- A source was offered room. -/
  | read (offered count : Nat) (fault : Option Error)
  /-- A sink was offered bytes. -/
  | write (offered : Bytes) (count : Nat) (fault : Option Error)
  /-- A plain input was offered room. -/
  | input (offered : Nat) (result : Except ErrorKind Nat)
  /-- A plain output was offered bytes. -/
  | output (offered : Bytes) (result : Except ErrorKind Nat)
  /-- A source was asked to move all it has. -/
  | writeTo (result : Option Receipt)
  /-- A sink was asked to take all a source has. -/
  | readFrom (result : Option Receipt)

/-- The place of a pool among the shared ones. -/
abbrev PoolId := Nat

/-- What streams share. -/
structure Shared where
  pools : List Pool
  /-- Errors that someone outside the streams holds. -/
  kept : List Error := []
  /-- The calls noted so far, in the order in which they returned. -/
  journal : Array Call := #[]
  /-- The identity of the next failure to enter a stream. -/
  nextId : ErrorId := 0
  /-- The number of rounds granted to a loop that has no bound of its own. -/
  patience : Nat := 0x1000000000000000

/-- A computation over what streams share that may be halted. -/
abbrev Act := EStateM Halt Shared

namespace Shared

/-- The pool at a place; a place that names none stands for a pool of the default kind. -/
def pool (s : Shared) (id : PoolId) : Pool := s.pools.getD id default

end Shared

namespace Act

/-- Halt on a broken contract unless the condition holds. -/
def require (holds : Bool) (b : Breach) : Act Unit :=
  if holds then pure () else throw (.breach b)

/-- Note a call. -/
def note (c : Call) : Act Unit :=
  modify fun s => { s with journal := s.journal.push c }

/-- The identity for a failure that enters a stream now. -/
def freshId : Act ErrorId := do
  let s ← get
  set { s with nextId := s.nextId + 1 }
  return s.nextId

/-- The rounds granted to a loop without a bound. -/
def patience : Act Nat := return (← get).patience

/-- Someone outside the streams holds the same error. -/
def isKept (e : Error) : Act Bool := return (← get).kept.any e.same

/-- The canonical block length of a pool. -/
def bufferSize (id : PoolId) : Act Nat := return ((← get).pool id).config.bufferSize

/-- Take a block from a pool. -/
def acquire (id : PoolId) (capacity : Nat) : Act Block := do
  let s ← get
  let (b, p) := (s.pool id).acquire capacity
  set { s with pools := s.pools.set id p }
  return b

/-- Offer a block to a pool; the block comes back if the pool turns it away. -/
def release (id : PoolId) (b : Block) : Act (Option Block) := do
  let s ← get
  let (rejected, p) := (s.pool id).release b
  set { s with pools := s.pools.set id p }
  return rejected

end Act

end BufferedStream
