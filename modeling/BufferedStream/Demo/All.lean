import BufferedStream.Demo.Basics
import BufferedStream.Demo.Connections
import BufferedStream.Demo.Records

/-!
# All demonstrations by name
-/

namespace BufferedStream.Demo

/-- The lines that the demonstration of a name says, and whether it came to its end. -/
def byName? : String → Option (List String × Bool)
  | "basic_usage" => some (perform {} basics)
  | "stream_processing" => some (perform {} records)
  | "network_simulation" => some (perform connectionPool connections)
  | _ => none

end BufferedStream.Demo
