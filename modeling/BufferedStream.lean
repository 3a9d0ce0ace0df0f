import BufferedStream.Demo.All
import BufferedStream.Duplex
import BufferedStream.Endpoint.Sink
import BufferedStream.Endpoint.Source
import BufferedStream.Error.Custody
import BufferedStream.Error.Message
import BufferedStream.Main
import BufferedStream.Pool.Report
import BufferedStream.Proofs.Agree
import BufferedStream.Proofs.Calm
import BufferedStream.Proofs.Completing
import BufferedStream.Proofs.Copying
import BufferedStream.Proofs.Custody
import BufferedStream.Proofs.Decoding
import BufferedStream.Proofs.Limit
import BufferedStream.Proofs.Patience
import BufferedStream.Proofs.Pool
import BufferedStream.Proofs.Reader.Attested
import BufferedStream.Proofs.Reader.Balance
import BufferedStream.Proofs.Reader.BothWays
import BufferedStream.Proofs.Reader.Bytes
import BufferedStream.Proofs.Reader.CallBound
import BufferedStream.Proofs.Reader.Chunking
import BufferedStream.Proofs.Reader.Course
import BufferedStream.Proofs.Reader.Cursor
import BufferedStream.Proofs.Reader.Decoding
import BufferedStream.Proofs.Reader.Delivery
import BufferedStream.Proofs.Reader.Drained
import BufferedStream.Proofs.Reader.EmptyRead
import BufferedStream.Proofs.Reader.Emptying
import BufferedStream.Proofs.Reader.Ending
import BufferedStream.Proofs.Reader.Faithful
import BufferedStream.Proofs.Reader.Fill
import BufferedStream.Proofs.Reader.Finite
import BufferedStream.Proofs.Reader.GivingBack
import BufferedStream.Proofs.Reader.Lasting
import BufferedStream.Proofs.Reader.Latched
import BufferedStream.Proofs.Reader.Lent
import BufferedStream.Proofs.Reader.LineErrors
import BufferedStream.Proofs.Reader.Lines
import BufferedStream.Proofs.Reader.MoveOut
import BufferedStream.Proofs.Reader.Moved
import BufferedStream.Proofs.Reader.NextLine
import BufferedStream.Proofs.Reader.Operation
import BufferedStream.Proofs.Reader.Outlook
import BufferedStream.Proofs.Reader.Plain
import BufferedStream.Proofs.Reader.PlainEnd
import BufferedStream.Proofs.Reader.Position
import BufferedStream.Proofs.Reader.Progress
import BufferedStream.Proofs.Reader.Pull
import BufferedStream.Proofs.Reader.Pushback
import BufferedStream.Proofs.Reader.Readings
import BufferedStream.Proofs.Reader.Records
import BufferedStream.Proofs.Reader.Rereading
import BufferedStream.Proofs.Reader.Roomy
import BufferedStream.Proofs.Reader.RuneReach
import BufferedStream.Proofs.Reader.Runes
import BufferedStream.Proofs.Reader.Splitting
import BufferedStream.Proofs.Reader.Stretch
import BufferedStream.Proofs.Reader.Surfacing
import BufferedStream.Proofs.Reader.Transfer
import BufferedStream.Proofs.Reader.Unnoticed
import BufferedStream.Proofs.Roomy
import BufferedStream.Proofs.RoundTrip
import BufferedStream.Proofs.Run
import BufferedStream.Proofs.Rune
import BufferedStream.Proofs.RuneTrip
import BufferedStream.Proofs.Safety.Bounds
import BufferedStream.Proofs.Safety.Bytes
import BufferedStream.Proofs.Safety.CheckedReader
import BufferedStream.Proofs.Safety.CheckedWriter
import BufferedStream.Proofs.Safety.Endpoint
import BufferedStream.Proofs.Safety.Fill
import BufferedStream.Proofs.Safety.Guard
import BufferedStream.Proofs.Safety.Reached
import BufferedStream.Proofs.Safety.Records
import BufferedStream.Proofs.Safety.Stack
import BufferedStream.Proofs.Safety.Transfer
import BufferedStream.Proofs.Safety.Writer
import BufferedStream.Proofs.Script
import BufferedStream.Proofs.Settled
import BufferedStream.Proofs.Sink
import BufferedStream.Proofs.Source
import BufferedStream.Proofs.Split
import BufferedStream.Proofs.Stack.Early
import BufferedStream.Proofs.Stack.Layer
import BufferedStream.Proofs.Stack.Reached
import BufferedStream.Proofs.Stack.Scan
import BufferedStream.Proofs.Stack.Sound
import BufferedStream.Proofs.Stock
import BufferedStream.Proofs.Twin.Basic
import BufferedStream.Proofs.Twin.Level
import BufferedStream.Proofs.Twin.Lockstep
import BufferedStream.Proofs.Twin.Records
import BufferedStream.Proofs.Twin.Sink
import BufferedStream.Proofs.Twin.Transfer
import BufferedStream.Proofs.Twin.Unseen
import BufferedStream.Proofs.Twin.Writer
import BufferedStream.Proofs.Validation
import BufferedStream.Proofs.Watched
import BufferedStream.Proofs.Writer.Acceptance
import BufferedStream.Proofs.Writer.Budget
import BufferedStream.Proofs.Writer.Calls
import BufferedStream.Proofs.Writer.Conservation
import BufferedStream.Proofs.Writer.Dispense
import BufferedStream.Proofs.Writer.Draw
import BufferedStream.Proofs.Writer.Failure
import BufferedStream.Proofs.Writer.Intake
import BufferedStream.Proofs.Writer.Latching
import BufferedStream.Proofs.Writer.Operation
import BufferedStream.Proofs.Writer.Pass
import BufferedStream.Proofs.Writer.WholeRune
import BufferedStream.Proofs.Writer.Write
import BufferedStream.Reader.Delimited
import BufferedStream.Reader.Plain
import BufferedStream.Reader.Transfer
import BufferedStream.Session.Run
import BufferedStream.Stream.Memory
import BufferedStream.Stream.Plain
import BufferedStream.Text.Fixed
import BufferedStream.Text.Rune
