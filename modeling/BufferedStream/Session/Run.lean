import BufferedStream.Session.State

/-!
# Running a session

A session runs step by step until it ends or a step is halted.  The transcript keeps, for each step,
its answer, the calls noted during it, and the figures of the reader, the writer and the pools after
it.
-/

namespace BufferedStream.Session

/-- The figures of a pool after a step. -/
structure PoolFigures where
  available : Nat
  counters : PoolCounters

/-- What a step leaves behind. -/
structure Entry where
  answer : Answer
  calls : List Call
  /-- The bytes that the reader holds unread. -/
  reader : Option Nat
  /-- The bytes that the writer has queued, and the room it has left. -/
  writer : Option (Nat × Nat)
  pools : List PoolFigures

/-- What can be seen of a session at its end. -/
structure Remains where
  reader : Option Endpoint.SourceView
  writer : Option Endpoint.SinkView
  source : Option Endpoint.SourceView
  sink : Option Endpoint.SinkView

/-- How a session ended. -/
inductive Ending where
  | finished (r : Remains)
  /-- A step was halted, after the given calls. -/
  | halted (h : Halt) (calls : List Call)

/-- A whole session. -/
structure Transcript where
  entries : List Entry
  ending : Ending

/-- What can be seen of a session now. -/
def remains (s : Session) : Remains where
  reader := s.reader?.map fun r => r.source.view
  writer := s.writer?.map fun w => w.sink.view
  source := s.source.map Endpoint.Source.view
  sink := s.sink.map Endpoint.Sink.view

/-- What a step that answered leaves behind. -/
def entry (a : Answer) (s : Session) (shared : Shared) : Entry where
  answer := a
  calls := shared.journal.toList
  reader := s.reader?.map Reader.buffered
  writer := s.writer?.map fun w => (w.buffered, w.available)
  pools := shared.pools.map fun p => ⟨p.available, p.counters⟩

/-- Run the steps one after another. -/
def run (s : Session) (shared : Shared) : List Step → Transcript
  | [] => ⟨[], .finished s.remains⟩
  | p :: rest =>
    match (s.step p).run { shared with journal := #[] } with
    | .ok (a, s) shared =>
      let after := s.run shared rest
      { after with entries := s.entry a shared :: after.entries }
    | .error h shared => ⟨[], .halted h shared.journal.toList⟩

/-- The place of an error among those held outside. -/
def placeOf (kept : List Error) (e : Error) : Option Nat := kept.findIdx? e.same

end BufferedStream.Session
