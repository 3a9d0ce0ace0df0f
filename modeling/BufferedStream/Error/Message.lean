import BufferedStream.Error.Basic
import BufferedStream.Text.Quoted

/-!
# Texts of an error

An error has three texts: the message for a reader (`message`), the messages of the errors under it
(`sources`), and its structure on one line (`structure`).
-/

namespace BufferedStream

mutual

/-- The message of an error. -/
def Error.message : Error → String
  | .bufferFull => "bufio: buffer full"
  | .invalidUnreadByte => "bufio: invalid use of unread_byte"
  | .invalidUnreadRune => "bufio: invalid use of unread_rune"
  | .shortWrite => "short write"
  | .eof => "end of stream"
  | .noProgress => "multiple read calls returned no data or error"
  | .io _ cause => "I/O error: " ++ cause.message

/-- The message of a system failure: what it carries, or else the description of its kind. -/
def IoError.message : IoError → String
  | .bare kind => kind.description
  | .fixed _ message => message
  | .system code _ detail => detail ++ " (os error " ++ toString code ++ ")"
  | .text _ message => message
  | .boxed _ error => error.message
  | .nested _ cause => cause.message
  | .sealed _ error => error.message
  | .foreign _ message _ _ => message

end

mutual

/-- The messages of the errors under an error, outermost first. -/
def Error.sources : Error → List String
  | .io _ cause => cause.message :: cause.sources
  | _ => []

/-- The messages under a system failure: those under what it carries, whose own message is the
failure's. -/
def IoError.sources : IoError → List String
  | .bare _ => []
  | .fixed _ _ => []
  | .system _ _ _ => []
  | .text _ _ => []
  | .boxed _ error => error.sources
  | .nested _ cause => cause.sources
  | .sealed _ error => error.sources
  | .foreign _ _ sources _ => sources

end

/-- A record with a kind and what is carried, on one line. -/
def carryingText (kind : ErrorKind) (carried : String) : String :=
  "Custom \x7b kind: " ++ kind.name ++ ", error: " ++ carried ++ " \x7d"

mutual

/-- The structure of an error on one line. -/
def Error.structureText : Error → String
  | .io _ cause => "Io(" ++ cause.structureText ++ ")"
  | .bufferFull => "BufferFull"
  | .invalidUnreadByte => "InvalidUnreadByte"
  | .invalidUnreadRune => "InvalidUnreadRune"
  | .shortWrite => "ShortWrite"
  | .eof => "Eof"
  | .noProgress => "NoProgress"

/-- The structure of a system failure on one line. -/
def IoError.structureText : IoError → String
  | .bare kind => "Kind(" ++ kind.name ++ ")"
  | .fixed kind message =>
    "Error \x7b kind: " ++ kind.name ++ ", message: " ++ Text.Quoted.quote message ++ " \x7d"
  | .system code kind detail =>
    "Os \x7b code: " ++ toString code ++ ", kind: " ++ kind.name ++ ", message: " ++
      Text.Quoted.quote detail ++ " \x7d"
  | .text kind message => carryingText kind (Text.Quoted.quote message)
  | .boxed kind error => carryingText kind error.structureText
  | .nested kind cause => carryingText kind cause.structureText
  | .sealed kind error => carryingText kind error.structureText
  | .foreign kind _ _ form => carryingText kind form

end

/-- The structure of a latched error, which may be absent. -/
def latchText : Option Error → String
  | none => "None"
  | some e => "Some(" ++ e.structureText ++ ")"

namespace Report

/-- The message of a report. -/
def message : Report → String
  | error e => e.message
  | text m => m

/-- The messages under a report. -/
def sources : Report → List String
  | error e => e.sources
  | text _ => []

/-- The stream error that a report was made from. -/
def inner? : Report → Option Error
  | error e => some e
  | text _ => none

end Report

/-- The stream error that a system failure carries in sight. -/
def IoError.inner? : IoError → Option Error
  | .boxed _ e => some e
  | _ => none

end BufferedStream
