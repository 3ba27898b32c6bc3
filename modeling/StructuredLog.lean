import StructuredLog.Text.Blank
import StructuredLog.Text.LetterCase
import StructuredLog.Text.Quoted
import StructuredLog.Text.Utf8
import StructuredLog.Text.Search
import StructuredLog.Binary64.Text
import StructuredLog.Json.Printer
import StructuredLog.Json.Reader
import StructuredLog.Error
import StructuredLog.Options
import StructuredLog.Counters
import StructuredLog.Dump
import StructuredLog.Stack
import StructuredLog.Record.Conversion
import StructuredLog.Config.Source
import StructuredLog.Config.Settings
import StructuredLog.Engine.Setup
import StructuredLog.Command.Run
import StructuredLog.Main
import StructuredLog.Proofs.Config.Agreement
import StructuredLog.Proofs.Config.Groups
import StructuredLog.Proofs.Config.Precedence
import StructuredLog.Proofs.Config.Unfolding
import StructuredLog.Proofs.Engine.Counting
import StructuredLog.Proofs.Engine.Lifecycle
import StructuredLog.Proofs.Engine.RecordContent
import StructuredLog.Proofs.Engine.Registered
import StructuredLog.Proofs.Engine.LastMessage
import StructuredLog.Proofs.Binary64.Value
import StructuredLog.Proofs.Decimal.Shape
import StructuredLog.Proofs.Record.RealText
import StructuredLog.Proofs.Json.Occurrence
import StructuredLog.Proofs.Config.Reload
import StructuredLog.Proofs.Config.Idempotence
import StructuredLog.Proofs.Config.Nesting
import StructuredLog.Proofs.Config.Positions
import StructuredLog.Proofs.Record.Pool
import StructuredLog.Proofs.Engine.RawDelivery
import StructuredLog.Proofs.Engine.Starting
import StructuredLog.Proofs.Text.Lines
import StructuredLog.Proofs.Config.Comments
import StructuredLog.Proofs.Text.Decoding
import StructuredLog.Proofs.Config.Outcome
import StructuredLog.Proofs.Engine.Building
import StructuredLog.Proofs.Dump
import StructuredLog.Proofs.OptionSets
import StructuredLog.Proofs.Binary64.Literal
import StructuredLog.Proofs.Command.Arguments
import StructuredLog.Proofs.Record.Conversion
import StructuredLog.Proofs.Command.Fields
import StructuredLog.Proofs.Json.Lines
import StructuredLog.Proofs.Engine.Display
