import BufferedStream.Error.Conversion

/-!
# Custody of an error

Which system failure an error converts to depends on who holds it.  A custody is one error, failure
or report in hand, together with the copies of errors that were put aside; a step converts what is
in hand, or puts a copy aside, or lets the copies go.
-/

namespace BufferedStream

/-- What is in hand. -/
inductive Subject where
  | error (e : Error)
  | failure (cause : IoError)
  | report (r : Report)
  deriving Repr, Inhabited

/-- What is in hand and the copies put aside, oldest first. -/
structure Custody where
  subject : Subject
  kept : List Error := []
  /-- The identity of the next failure to enter a stream. -/
  nextId : ErrorId := 0
  /-- A report has taken part, so the structure of what is in hand can no longer be shown. -/
  reported : Bool := false
  deriving Repr, Inhabited

namespace Custody

/-- The steps of a custody. -/
inductive Step where
  /-- Replace the error by a copy of itself. -/
  | copy
  /-- Put a copy of the error aside. -/
  | keep
  /-- Let go of the copies put aside. -/
  | drop
  /-- Turn the error into a system failure. -/
  | toIo
  /-- Let the failure or report enter a stream. -/
  | toError
  /-- Carry the error or failure in a new one of the unspecific kind. -/
  | wrap
  /-- Turn the error into a report. -/
  | toReport
  deriving DecidableEq, Repr

/-- Someone else holds the same error. -/
def isShared (c : Custody) (e : Error) : Bool :=
  c.kept.any e.same

/-- An error that enters a stream now takes the next identity. -/
def receive (c : Custody) (make : ErrorId → Error) : Custody :=
  { c with subject := .error (make c.nextId), nextId := c.nextId + 1 }

/-- One step; a step that does not apply to what is in hand changes nothing. -/
def step (c : Custody) (s : Step) : Custody :=
  match s, c.subject with
  | .copy, _ => c
  | .keep, .error e => { c with kept := c.kept ++ [e] }
  | .drop, _ => { c with kept := [] }
  | .toIo, .error e => { c with subject := .failure (e.toIo (c.isShared e)) }
  | .toError, .failure cause => c.receive fun id => cause.enter id
  | .toError, .report r => { c.receive fun id => Error.ofReport id r with reported := true }
  | .wrap, .error e => c.receive fun id => e.wrapping id
  | .wrap, .failure cause => c.receive fun id => Error.wrappingIo id cause
  | .toReport, .error e => { c with subject := .report (.error e), reported := true }
  | _, _ => c

/-- The custodies after each of a list of steps. -/
def run (c : Custody) : List Step → List Custody
  | [] => []
  | s :: rest => c.step s :: (c.step s).run rest

/-- Which of the copies put aside are the same error as the one in hand. -/
def sameAsKept (c : Custody) (e : Error) : List Bool :=
  c.kept.map e.same

end Custody

end BufferedStream
