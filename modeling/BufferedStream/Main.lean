import BufferedStream.Demo.All

/-!
# The command line: one demonstration

The only argument names the demonstration whose lines are printed.
-/

open BufferedStream

/-- Print the lines of the demonstration that the argument names. -/
def main (args : List String) : IO UInt32 := do
  match args with
  | [name] =>
    match Demo.byName? name with
    | some (lines, finished) =>
      for line in lines do
        IO.println line
      return if finished then 0 else 1
    | none =>
      IO.eprintln ("unknown demonstration: " ++ name)
      return 2
  | _ =>
    IO.eprintln "usage: demonstration NAME"
    return 2
