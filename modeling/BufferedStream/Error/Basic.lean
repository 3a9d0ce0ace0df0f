/-!
# Errors of a stream

A stream fails for one of six reasons of its own, or because the system under it failed.  A system
failure keeps the identity it got when it entered the stream: two of them are the same error only if
they are one occurrence, however alike they read.  A system failure may in turn carry a stream error
inside, so the two types are defined together.
-/

namespace BufferedStream

/-- The kinds of system failure.  The list of them is open: a kind that no stream asks for is known
by its two texts. -/
inductive ErrorKind where
  | notFound
  | permissionDenied
  | connectionReset
  | connectionAborted
  | brokenPipe
  | wouldBlock
  | invalidInput
  | invalidData
  | timedOut
  | writeZero
  | interrupted
  | unexpectedEof
  | outOfMemory
  | other
  /-- A kind that is not among these. -/
  | further (name description : String)
  deriving DecidableEq, Repr, Inhabited

namespace ErrorKind

/-- The name of a kind. -/
def name : ErrorKind → String
  | notFound => "NotFound"
  | permissionDenied => "PermissionDenied"
  | connectionReset => "ConnectionReset"
  | connectionAborted => "ConnectionAborted"
  | brokenPipe => "BrokenPipe"
  | wouldBlock => "WouldBlock"
  | invalidInput => "InvalidInput"
  | invalidData => "InvalidData"
  | timedOut => "TimedOut"
  | writeZero => "WriteZero"
  | interrupted => "Interrupted"
  | unexpectedEof => "UnexpectedEof"
  | outOfMemory => "OutOfMemory"
  | other => "Other"
  | further name _ => name

/-- What a failure of a kind says when it carries no message of its own. -/
def description : ErrorKind → String
  | notFound => "entity not found"
  | permissionDenied => "permission denied"
  | connectionReset => "connection reset"
  | connectionAborted => "connection aborted"
  | brokenPipe => "broken pipe"
  | wouldBlock => "operation would block"
  | invalidInput => "invalid input parameter"
  | invalidData => "invalid data"
  | timedOut => "timed out"
  | writeZero => "write zero"
  | interrupted => "operation interrupted"
  | unexpectedEof => "unexpected end of file"
  | outOfMemory => "out of memory"
  | other => "other error"
  | further _ description => description

/-- The kinds that have a constructor of their own. -/
def listed : List ErrorKind :=
  [notFound, permissionDenied, connectionReset, connectionAborted, brokenPipe, wouldBlock,
   invalidInput, invalidData, timedOut, writeZero, interrupted, unexpectedEof, outOfMemory, other]

/-- The listed kind of a given name. -/
def ofName? (s : String) : Option ErrorKind :=
  listed.find? fun k => k.name == s

end ErrorKind

/-- The identity of one occurrence of a system failure. -/
abbrev ErrorId := Nat

mutual

/-- Why a stream operation failed. -/
inductive Error where
  /-- The record does not fit into the buffer. -/
  | bufferFull
  /-- There is no byte to push back. -/
  | invalidUnreadByte
  /-- The last operation was not the reading of a rune. -/
  | invalidUnreadRune
  /-- The sink took fewer bytes than it was offered and gave no reason. -/
  | shortWrite
  /-- The source has no more bytes. -/
  | eof
  /-- The source kept handing out nothing. -/
  | noProgress
  /-- A failure of the source or the sink, passed on as it came. -/
  | io (id : ErrorId) (cause : IoError)

/-- A system failure: its kind and what it carries. -/
inductive IoError where
  /-- The kind alone. -/
  | bare (kind : ErrorKind)
  /-- A fixed message. -/
  | fixed (kind : ErrorKind) (message : String)
  /-- What the system reports: its number for the failure, and its own words. -/
  | system (code : Int) (kind : ErrorKind) (detail : String)
  /-- A message. -/
  | text (kind : ErrorKind) (message : String)
  /-- A stream error. -/
  | boxed (kind : ErrorKind) (error : Error)
  /-- Another system failure. -/
  | nested (kind : ErrorKind) (cause : IoError)
  /-- A stream error whose type can no longer be seen. -/
  | sealed (kind : ErrorKind) (error : Error)
  /-- An error that has nothing to do with streams, by what it shows of itself: its message, the
  messages under it and its form on one line. -/
  | foreign (kind : ErrorKind) (message : String) (sources : List String) (form : String)

end

deriving instance Repr, Inhabited for IoError, Error

/-- A general report: a stream error or a message, with its type hidden. -/
inductive Report where
  | error (e : Error)
  | text (message : String)
  deriving Repr, Inhabited

/-- The kind of a system failure. -/
def IoError.kind : IoError → ErrorKind
  | .bare k | .fixed k _ | .system _ k _ | .text k _ | .boxed k _ | .nested k _ | .sealed k _
  | .foreign k _ _ _ => k

namespace Error

/-- The end of the stream, which is no failure. -/
def isEof : Error → Bool
  | eof => true
  | _ => false

/-- The same error: of one reason, and for system failures the same occurrence. -/
def same : Error → Error → Bool
  | bufferFull, bufferFull => true
  | invalidUnreadByte, invalidUnreadByte => true
  | invalidUnreadRune, invalidUnreadRune => true
  | shortWrite, shortWrite => true
  | eof, eof => true
  | noProgress, noProgress => true
  | io i _, io j _ => i == j
  | _, _ => false

/-- The name of the reason. -/
def name : Error → String
  | bufferFull => "BufferFull"
  | invalidUnreadByte => "InvalidUnreadByte"
  | invalidUnreadRune => "InvalidUnreadRune"
  | shortWrite => "ShortWrite"
  | eof => "Eof"
  | noProgress => "NoProgress"
  | io _ _ => "Io"

/-- The reasons that a stream itself can give. -/
def plain : List Error :=
  [bufferFull, invalidUnreadByte, invalidUnreadRune, shortWrite, eof, noProgress]

/-- A stream's own reason of a given name. -/
def ofName? (s : String) : Option Error :=
  plain.find? fun e => e.name == s

theorem same_refl (e : Error) : e.same e = true := by
  cases e <;> simp [same]

theorem same_comm (a b : Error) : a.same b = b.same a := by
  cases a <;> cases b <;> simp [same, Bool.beq_comm]

end Error

end BufferedStream
