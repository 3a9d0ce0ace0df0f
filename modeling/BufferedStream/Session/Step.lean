import BufferedStream.Endpoint.Sink
import BufferedStream.Endpoint.Source

/-!
# Steps of a session

A session exercises the library step by step: it has a place for a reader, a writer, a pair of both, a
source and a sink, and named places for blocks.  This file holds what can be asked of it (`Step`) and
what it can answer (`Answer`).
-/

namespace BufferedStream.Session

/-- How a source is made. -/
inductive SourceSpec where
  | memory (data : Bytes)
  | script (s : Script.Source)
  | plain (s : Script.Input)
  /-- A reader over another source; a capacity that is not given is the pool's canonical size. -/
  | reader (capacity : Option Nat) (pool : PoolId) (inner : SourceSpec)
  /-- The source that the session holds. -/
  | held

/-- How a sink is made. -/
inductive SinkSpec where
  | memory (data : Bytes)
  | script (k : Script.Sink)
  | plain (o : Script.Output)
  /-- A writer over another sink; a capacity that is not given is the pool's canonical size. -/
  | writer (capacity : Option Nat) (pool : PoolId) (inner : SinkSpec)
  /-- The sink that the session holds. -/
  | held

/-- Where a reader is emptied to. -/
inductive Target where
  /-- The sink of the session. -/
  | sink
  /-- The writer of the session. -/
  | writer
  deriving DecidableEq, Repr

/-- What a writer draws from. -/
inductive Origin where
  /-- The source of the session. -/
  | source
  /-- The reader of the session. -/
  | reader
  deriving DecidableEq, Repr

/-- What can be asked of a pool. -/
inductive PoolStep where
  | acquire (slot : String) (capacity : Nat)
  | provide (slot : String) (data : Bytes)
  | fillWith (slot : String) (b : UInt8)
  | release (slot : String)
  | clear
  | info
  | text

/-- What can be asked of a reader. -/
inductive ReaderStep where
  | peek (n : Nat)
  | read (n : Nat)
  | readByte
  | unreadByte
  | readRune
  | unreadRune
  | readSlice (delim : UInt8)
  | readBytes (delim : UInt8)
  | readString (delim : UInt8)
  | readLine
  | writeTo (target : Target)
  | capacity
  | view
  | readSource (n : Nat)
  | text
  | adapt (size : Nat) (pool : PoolId)
  | intoSource
  | plainRead (n : Nat)
  | plainReadAll (n : Nat)
  | fillBuf
  | consume (n : Nat)
  | readUntil (delim : UInt8)

/-- What can be asked of a writer. -/
inductive WriterStep where
  | write (data : Bytes)
  | writeByte (b : UInt8)
  | writeRune (c : Char)
  | flush
  | readFrom (origin : Origin)
  | capacity
  | view
  | adapt (size : Nat) (pool : PoolId)
  | writeSink (data : Bytes)
  | text
  | intoSink
  | plainWrite (data : Bytes)
  | plainFlush

/-- What can be asked of a reader and writer that were paired. -/
inductive DuplexStep where
  | read (n : Nat)
  | write (data : Bytes)
  | writeTo
  | readFrom
  | plainRead (n : Nat)
  | fillBuf
  | consume (n : Nat)
  | plainWrite (data : Bytes)
  | plainFlush
  | text

/-- What can be asked of a source. -/
inductive SourceStep where
  | read (n : Nat)
  | writeTo (target : Target)
  | view
  | unwrap

/-- What can be asked of a sink. -/
inductive SinkStep where
  | write (data : Bytes)
  | readFrom (origin : Origin)
  | view
  | unwrap

/-- What can be asked of a session. -/
inductive Step where
  | makeSource (spec : SourceSpec)
  | makeSink (spec : SinkSpec)
  | makeReader (spec : SourceSpec) (capacity : Option Nat) (pool : PoolId)
  | makeWriter (spec : SinkSpec) (capacity : Option Nat) (pool : PoolId)
  | join
  | split
  | pool (id : PoolId) (s : PoolStep)
  | reader (s : ReaderStep)
  | writer (s : WriterStep)
  | duplex (s : DuplexStep)
  | source (s : SourceStep)
  | sink (s : SinkStep)

/-- The figures of a pool that an inquiry shows. -/
structure PoolInfo where
  config : PoolConfig
  available : Nat
  hitRate : Float

/-- What a step answers. -/
inductive Answer where
  /-- Nothing, where nothing was asked for or an endpoint lacks a capability. -/
  | nothing
  /-- The step asks for something that the session does not hold. -/
  | missing (what : String)
  | number (n : Nat)
  | bytes (b : Bytes)
  | text (s : String)
  | texts (s : List String)
  | transfer (r : Receipt)
  | passage (p : Passage)
  /-- A reading into room of the given size. -/
  | reading (room : Nat) (g : Reading)
  | unit (r : Except Error Unit)
  | byte (r : Except Error UInt8)
  | width (r : Except Error Nat)
  | rune (r : Except Error (Char × Nat))
  | line (r : Except Error (Bytes × Bool))
  | plainUnit (r : Except IoError Unit)
  | plainCount (r : Except IoError Nat)
  | plainBytes (r : Except IoError Bytes)
  /-- The bytes read until nothing came or a failure was reported. -/
  | plainAll (b : Bytes) (failure : Option IoError)
  /-- The number of bytes read and the bytes appended. -/
  | plainUntil (r : Except IoError Nat) (b : Bytes)
  | sourceView (v : Endpoint.SourceView)
  | sinkView (v : Endpoint.SinkView)
  | block (b : Block)
  /-- The block that the pool turned away, if it did. -/
  | rejected (b : Option Block)
  | info (i : PoolInfo)

end BufferedStream.Session
