import BufferedStream.Error.Message
import BufferedStream.Stream.Act
import BufferedStream.Text.Rune

/-!
# Demonstrations

A demonstration uses the library and says what it sees, line by line.  An error that it does not expect
ends it.
-/

namespace BufferedStream

/-- A demonstration: acts on streams that add to the lines said so far. -/
abbrev Demo := StateT (Array String) (ExceptT Error Act)

namespace Demo

/-- Say one line. -/
def say (line : String) : Demo Unit := modify fun lines => lines.push line

/-- Say the title of the first part. -/
def title (text : String) : Demo Unit := do
  say ("=== " ++ text ++ " ===")
  say ""

/-- Say the title of a later part. -/
def part (text : String) : Demo Unit := do
  say ""
  title text

/-- Do an act. -/
def act {α : Type} (a : Act α) : Demo α := fun lines => ExceptT.lift (return (← a, lines))

/-- Go on with the value of a result, or end with its error. -/
def expect {α : Type} : Except Error α → Demo α
  | .ok a => pure a
  | .error e => throw e

/-- The written form of a text. -/
def quoted (b : Bytes) : String := Text.Quoted.quote (Rune.lossy b)

/-- The lines a demonstration says over a given pool, and whether it came to its end. -/
def perform (config : PoolConfig) (d : Demo Unit) : List String × Bool :=
  let act : Act (Except Error (Unit × Array String)) := (StateT.run d #[]).run
  match act.run { pools := [Pool.create config] } with
  | .ok (.ok ((), lines)) _ => (lines.toList, true)
  | _ => ([], false)

end Demo

end BufferedStream
