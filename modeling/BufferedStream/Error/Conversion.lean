import BufferedStream.Error.Basic

/-!
# Conversions between errors

A stream error becomes a system failure, and a system failure becomes a stream error when it enters
a stream.  A system failure that entered a stream comes out again as it was, unless someone else
still holds the same error: then it stays where it is and the new failure carries it.
-/

namespace BufferedStream

namespace Error

/-- The kind an error has as a system failure. -/
def ioKind : Error → ErrorKind
  | eof => .unexpectedEof
  | shortWrite => .writeZero
  | invalidUnreadByte => .invalidInput
  | invalidUnreadRune => .invalidInput
  | bufferFull => .other
  | noProgress => .other
  | io _ cause => cause.kind

/-- An error as a system failure; `shared` says that someone else holds the same error. -/
def toIo (shared : Bool) : Error → IoError
  | io id cause => if shared then .boxed cause.kind (io id cause) else cause
  | e => .boxed e.ioKind e

/-- A message as a stream error of the unspecific kind. -/
def ofMessage (id : ErrorId) (message : String) : Error :=
  io id (.text .other message)

/-- A stream error carried by one of the unspecific kind. -/
def wrapping (id : ErrorId) (e : Error) : Error :=
  io id (.boxed .other e)

/-- A system failure carried by a stream error of the unspecific kind. -/
def wrappingIo (id : ErrorId) (cause : IoError) : Error :=
  io id (.nested .other cause)

/-- A report as a stream error: what the report was made from can no longer be seen. -/
def ofReport (id : ErrorId) : Report → Error
  | .error e => io id (.sealed .other e)
  | .text m => io id (.text .other m)

end Error

/-- A system failure as a stream error, a new occurrence. -/
def IoError.enter (id : ErrorId) (cause : IoError) : Error :=
  .io id cause

/-- A result with its error as a system failure. -/
def intoIo {α : Type} (shared : Bool) : Except Error α → Except IoError α :=
  Except.mapError (Error.toIo shared)

/-- A result with its error as a report. -/
def intoReport {α : Type} : Except Error α → Except Report α :=
  Except.mapError Report.error

namespace Error

theorem kind_toIo (shared : Bool) (e : Error) : (e.toIo shared).kind = e.ioKind := by
  cases e <;> cases shared <;> rfl

end Error

end BufferedStream
