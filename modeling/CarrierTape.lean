import CarrierTape.Main
import CarrierTape.Proofs.Job.Layout
import CarrierTape.Proofs.Job.LeftToRight
import CarrierTape.Proofs.Job.Script
import CarrierTape.Proofs.Script.Interpreter
import CarrierTape.Proofs.Script.Writer
import CarrierTape.Proofs.Tape.Accuracy
import CarrierTape.Record.Document
import CarrierTape.Script.Writer
import CarrierTape.Tape.Document
import CarrierTape.Proofs.Job.FirstError
import CarrierTape.Proofs.Job.Locality
import CarrierTape.Proofs.FileTree
import CarrierTape.Proofs.Script.Reader
import CarrierTape.Proofs.Command.Run
import CarrierTape.Proofs.Script.Minimal
import CarrierTape.Proofs.Binary64.Nearest
import CarrierTape.Proofs.Decimal.Reader
import CarrierTape.Proofs.Length.Grammar
import CarrierTape.Proofs.Length.Reader
import CarrierTape.Proofs.Json.Grammar
import CarrierTape.Proofs.Json.Completeness
import CarrierTape.Proofs.Json.Soundness
import CarrierTape.Proofs.Json.Decoder
import CarrierTape.Proofs.Json.Schema
import CarrierTape.Proofs.Length.Document
import CarrierTape.Proofs.Job.Document
import CarrierTape.Proofs.Decimal.Shortest
import CarrierTape.Proofs.Json.Number
import CarrierTape.Proofs.Json.Printer
import CarrierTape.Proofs.Record.Document
import CarrierTape.Proofs.Tape.Shortened
import CarrierTape.Proofs.Tape.Blame
import CarrierTape.Proofs.Decimal.Stable
import CarrierTape.Proofs.Length.Numbers
import CarrierTape.Proofs.Length.Stable
import CarrierTape.Proofs.Json.Nearest
import CarrierTape.Proofs.Length.Forms
import CarrierTape.Proofs.Tape.Axes
import CarrierTape.Proofs.Job.Explicit
import CarrierTape.Proofs.Job.ChipCode
import CarrierTape.Proofs.Job.Standard
import CarrierTape.Proofs.Tape.CountFromNumber
import CarrierTape.Proofs.Tape.Ordered
import CarrierTape.Proofs.Binary64.Relative
import CarrierTape.Proofs.Length.Conversion
import CarrierTape.Proofs.Text.LowerCase
import CarrierTape.Proofs.Config.Validity
