import TerminalSession.Archive
import TerminalSession.Calendar
import TerminalSession.Classifier
import TerminalSession.Command
import TerminalSession.Command.Failure
import TerminalSession.CommandLine.Reader
import TerminalSession.CommandLine.Switch
import TerminalSession.CommandLine.Verb
import TerminalSession.Component
import TerminalSession.Config
import TerminalSession.Decimal
import TerminalSession.Entry
import TerminalSession.Escape.Strip
import TerminalSession.Escape.Tail
import TerminalSession.Failure
import TerminalSession.Files
import TerminalSession.Frame
import TerminalSession.Json
import TerminalSession.Json.Reader
import TerminalSession.Json.Writer
import TerminalSession.Log.Directive
import TerminalSession.Log.Filter
import TerminalSession.Log.Format
import TerminalSession.Log.Level
import TerminalSession.Log.Line
import TerminalSession.Log.Override
import TerminalSession.Log.Pattern
import TerminalSession.Log.Pattern.Set
import TerminalSession.Log.Pattern.Symbol
import TerminalSession.Main
import TerminalSession.Monitor
import TerminalSession.Program
import TerminalSession.Prompt
import TerminalSession.Record
import TerminalSession.Recorder
import TerminalSession.Settings
import TerminalSession.Settings.Load
import TerminalSession.Settings.Outline
import TerminalSession.Settings.Toml
import TerminalSession.Sink
import TerminalSession.Stage
import TerminalSession.Status
import TerminalSession.Summary
import TerminalSession.Text.Alphanumeric
import TerminalSession.Text.Blank
import TerminalSession.Text.Cased
import TerminalSession.Text.CharRange
import TerminalSession.Text.Clean
import TerminalSession.Text.Digit
import TerminalSession.Text.Lines
import TerminalSession.Text.Lowercase
import TerminalSession.Toml
import TerminalSession.Toml.Date
import TerminalSession.Toml.Number
import TerminalSession.Toml.Reader
import TerminalSession.Toml.Tables
import TerminalSession.Toml.Text
import TerminalSession.Transcript
import TerminalSession.Transcript.Search
import TerminalSession.Transcript.Snippet
import TerminalSession.Utf8
import TerminalSession.Watch
import TerminalSession.Worker
import TerminalSession.Proofs.Component.Passing
import TerminalSession.Proofs.Stage.Run
import TerminalSession.Proofs.Recorder.Arrivals
import TerminalSession.Proofs.Recorder.Transcript
import TerminalSession.Proofs.Classifier.Chain
import TerminalSession.Proofs.Escape.Sequence
import TerminalSession.Proofs.Text.Visible
import TerminalSession.Proofs.Utf8.Codec
import TerminalSession.Proofs.Escape.Spill
import TerminalSession.Proofs.Escape.Unfinished
import TerminalSession.Proofs.Recorder.Chunks
import TerminalSession.Proofs.Stage.Parts
import TerminalSession.Proofs.Classifier.Silence
import TerminalSession.Proofs.Monitor.Parts
import TerminalSession.Proofs.Watch.Teardown
import TerminalSession.Proofs.Classifier.Idle
import TerminalSession.Proofs.Classifier.Tail
import TerminalSession.Proofs.Decimal.Numeral
import TerminalSession.Proofs.Json.RoundTrip
import TerminalSession.Proofs.Transcript.RoundTrip
import TerminalSession.Proofs.Worker.Queue
import TerminalSession.Proofs.Worker.Loop
import TerminalSession.Proofs.Worker.Rest
import TerminalSession.Proofs.Worker.Settling
import TerminalSession.Proofs.Stage.Holds
import TerminalSession.Proofs.Monitor.Holds
import TerminalSession.Proofs.Recorder.Repeats
import TerminalSession.Proofs.Files.Append
import TerminalSession.Proofs.Transcript.Joined
import TerminalSession.Proofs.Watch.Reading
import TerminalSession.Proofs.Watch.Transcript
import TerminalSession.Proofs.Utf8.Pieces
import TerminalSession.Proofs.Escape.Removal
import TerminalSession.Proofs.Escape.Cut
import TerminalSession.Proofs.Recorder.Decoding
import TerminalSession.Proofs.Recorder.Typed
import TerminalSession.Proofs.Stage.Frozen
import TerminalSession.Proofs.Recorder.Held
import TerminalSession.Proofs.Recorder.Filing
import TerminalSession.Proofs.Recorder.Buffer
import TerminalSession.Proofs.Recorder.Ticks
import TerminalSession.Proofs.Recorder.Stop
import TerminalSession.Proofs.Monitor.Stop
import TerminalSession.Proofs.Recorder.LastTail
import TerminalSession.Proofs.Monitor.EmptyChunk
import TerminalSession.Proofs.Text.Trim
import TerminalSession.Proofs.Text.NormalForm
import TerminalSession.Proofs.Utf8.Slices
import TerminalSession.Proofs.Transcript.Search
import TerminalSession.Proofs.Prompt.Signature
import TerminalSession.Proofs.Classifier.Decorated
import TerminalSession.Proofs.Text.Words
import TerminalSession.Proofs.Transcript.Snippet
import TerminalSession.Proofs.Utf8.Parts
import TerminalSession.Proofs.Transcript.Place
import TerminalSession.Proofs.Stage.Timetable
import TerminalSession.Proofs.Monitor.Timetable
import TerminalSession.Proofs.Summary.Distinct
import TerminalSession.Proofs.Archive.Insights
import TerminalSession.Proofs.Text.Cleaners
import TerminalSession.Proofs.Json.NormalForm
import TerminalSession.Proofs.Log.Level
import TerminalSession.Proofs.Log.Override
import TerminalSession.Proofs.CommandLine.Overrides
