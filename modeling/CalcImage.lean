import CalcImage.Text.Align
import CalcImage.Text.Blank
import CalcImage.Text.Digit
import CalcImage.Text.Hex
import CalcImage.Text.Lines
import CalcImage.Text.Printable
import CalcImage.Text.Quoted
import CalcImage.Text.UpperCase
import CalcImage.Text.Utf8
import CalcImage.Log
import CalcImage.Fault
import CalcImage.Numeral
import CalcImage.Word
import CalcImage.Memory.Walk
import CalcImage.Memory.Cpu
import CalcImage.Memory.Image
import CalcImage.Memory.Edit
import CalcImage.Memory.Status
import CalcImage.Glyph
import CalcImage.Xrom
import CalcImage.Instruction.Shape
import CalcImage.Instruction.Operand
import CalcImage.Instruction.Tape
import CalcImage.Instruction.Marker
import CalcImage.Instruction.Basic
import CalcImage.Instruction.Decode
import CalcImage.Program.Catalog
import CalcImage.Program.Listing
import CalcImage.Calendar
import CalcImage.Alarm.Basic
import CalcImage.Injection
import CalcImage.Transcription.Line
import CalcImage.Transcription.Basic
import CalcImage.Report
import CalcImage.Toml.Value
import CalcImage.Toml.Text
import CalcImage.Toml.Scalar
import CalcImage.Toml.Document
import CalcImage.File.Path
import CalcImage.File.Store
import CalcImage.Settings
import CalcImage.Command.Options
import CalcImage.Command.Run
import CalcImage.Main
import CalcImage.Proofs.Memory.Order
import CalcImage.Proofs.Memory.Lay
import CalcImage.Proofs.Memory.Status
import CalcImage.Proofs.Memory.Edit
import CalcImage.Proofs.Injection.Outcome
import CalcImage.Proofs.Injection.Effect
import CalcImage.Proofs.Injection.Run
import CalcImage.Proofs.Program.Scan
import CalcImage.Proofs.Program.Append
import CalcImage.Proofs.Program.Kept
import CalcImage.Proofs.Program.Groups
import CalcImage.Proofs.Text.Lines
import CalcImage.Proofs.Text.Utf8
import CalcImage.Proofs.Text.Words
import CalcImage.Proofs.Text.UpperCase
import CalcImage.Proofs.Transcription.Line
import CalcImage.Proofs.Memory.Copy
import CalcImage.Proofs.Transcription.RoundTrip
import CalcImage.Proofs.Instruction.Span
import CalcImage.Proofs.Program.Stream
import CalcImage.Proofs.Program.Search
import CalcImage.Proofs.Injection.Refusal
import CalcImage.Proofs.Instruction.Local
import CalcImage.Proofs.Program.Listing
import CalcImage.Proofs.Injection.Listed
import CalcImage.Proofs.Alarm.Records
import CalcImage.Proofs.Alarm.Stored
import CalcImage.Proofs.Fault
import CalcImage.Proofs.Program.Faults
import CalcImage.Proofs.Calendar
import CalcImage.Proofs.Safety
import CalcImage.Proofs.Calendar.Gregorian
import CalcImage.Proofs.Alarm.Clock
import CalcImage.Proofs.Report.ProgramTable
import CalcImage.Proofs.Recording
import CalcImage.Proofs.File.Store
import CalcImage.Proofs.Command.Work
import CalcImage.Proofs.Command.Written
import CalcImage.Proofs.File.Name
import CalcImage.Proofs.Command.Arguments
import CalcImage.Proofs.Command.Chained
import CalcImage.Proofs.Injection.Alarms
import CalcImage.Proofs.Transcription.Digits
import CalcImage.Proofs.Program.Cut
import CalcImage.Proofs.Command.Missing
import CalcImage.Proofs.Memory.Bottom
import CalcImage.Proofs.Injection.Pieces
import CalcImage.Proofs.Alarm.Visited
import CalcImage.Proofs.Transcription.Grammar
import CalcImage.Proofs.Transcription.Parsed
import CalcImage.Proofs.Injection.Payload
import CalcImage.Proofs.Program.Spelling
import CalcImage.Proofs.Settings
import CalcImage.Proofs.Memory.Writes
import CalcImage.Proofs.Memory.Trail
