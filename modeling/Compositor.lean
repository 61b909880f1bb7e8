import Compositor.Asset.Location
import Compositor.Asset.Lookup
import Compositor.CommandLine
import Compositor.Compile
import Compositor.Decimal.Binary
import Compositor.Decimal.Layout
import Compositor.Decimal.Reading
import Compositor.Decimal.Scaled
import Compositor.Decimal.Shortest
import Compositor.Engine.Basic
import Compositor.Engine.Diagnostics
import Compositor.Engine.Ffmpeg
import Compositor.Engine.Program
import Compositor.Error
import Compositor.File.Path
import Compositor.File.System
import Compositor.Filter
import Compositor.Json.Document
import Compositor.Json.Fault
import Compositor.Json.Quoted
import Compositor.Json.Reader
import Compositor.Json.Record
import Compositor.Json.Token
import Compositor.Json.Tree
import Compositor.Json.Variant
import Compositor.Main
import Compositor.Media.Basic
import Compositor.Media.Names
import Compositor.Plan.Basic
import Compositor.Plan.Fingerprint
import Compositor.Plan.Payload
import Compositor.Plan.Text
import Compositor.Progress
import Compositor.Proofs.Asset.Below
import Compositor.Proofs.Asset.Confined
import Compositor.Proofs.Asset.Slashes
import Compositor.Proofs.Compile.Counts
import Compositor.Proofs.Compile.Edge
import Compositor.Proofs.Compile.Equality
import Compositor.Proofs.Compile.Essence
import Compositor.Proofs.Compile.Fanout
import Compositor.Proofs.Compile.Feeding
import Compositor.Proofs.Compile.GraphText
import Compositor.Proofs.Compile.Inputs
import Compositor.Proofs.Compile.Linear
import Compositor.Proofs.Compile.Numbers
import Compositor.Proofs.Compile.Parts
import Compositor.Proofs.Compile.Picture
import Compositor.Proofs.Compile.Playback
import Compositor.Proofs.Compile.Pruning
import Compositor.Proofs.Compile.Ramps
import Compositor.Proofs.Compile.Renaming
import Compositor.Proofs.Compile.Sorting
import Compositor.Proofs.Compile.Sound
import Compositor.Proofs.Compile.Tally
import Compositor.Proofs.Compile.Typing
import Compositor.Proofs.Compile.Wiring
import Compositor.Proofs.Compile.Writing
import Compositor.Proofs.Decimal.Characters
import Compositor.Proofs.Decimal.Finite
import Compositor.Proofs.Decimal.Operations
import Compositor.Proofs.Decimal.Quotients
import Compositor.Proofs.Decimal.Rounding
import Compositor.Proofs.Decimal.Scaled
import Compositor.Proofs.Decimal.Signs
import Compositor.Proofs.Decimal.Value
import Compositor.Proofs.Decimal.Whole
import Compositor.Proofs.Decimal.Zeros
import Compositor.Proofs.Engine.Output
import Compositor.Proofs.Engine.Tail
import Compositor.Proofs.File.Frame
import Compositor.Proofs.File.Names
import Compositor.Proofs.File.Places
import Compositor.Proofs.File.Room
import Compositor.Proofs.File.Tree
import Compositor.Proofs.Json.Demands
import Compositor.Proofs.Json.Formats
import Compositor.Proofs.Json.Lexemes
import Compositor.Proofs.Json.Lexing
import Compositor.Proofs.Json.Members
import Compositor.Proofs.Json.Numbers
import Compositor.Proofs.Json.Printing
import Compositor.Proofs.Json.Respelling
import Compositor.Proofs.Json.Scanning
import Compositor.Proofs.Json.Spelling
import Compositor.Proofs.Plan.Arguments
import Compositor.Proofs.Plan.FilterText
import Compositor.Proofs.Plan.Framing
import Compositor.Proofs.Plan.GraphText
import Compositor.Proofs.Plan.Hashing
import Compositor.Proofs.Plan.Linear
import Compositor.Proofs.Plan.Playback
import Compositor.Proofs.Plan.Signal
import Compositor.Proofs.Progress.Fractions
import Compositor.Proofs.Progress.Lines
import Compositor.Proofs.Progress.Snapshots
import Compositor.Proofs.Session.Accounting
import Compositor.Proofs.Session.Execution
import Compositor.Proofs.Session.FileNames
import Compositor.Proofs.Session.Footprint
import Compositor.Proofs.Session.Manifest
import Compositor.Proofs.Session.NameLengths
import Compositor.Proofs.Session.Order
import Compositor.Proofs.Session.Phases
import Compositor.Proofs.Session.Refusal
import Compositor.Proofs.Session.Rehearsal
import Compositor.Proofs.Session.Repetition
import Compositor.Proofs.Session.RunId
import Compositor.Proofs.Session.Schedule
import Compositor.Proofs.Session.StagedBytes
import Compositor.Proofs.Session.Staging
import Compositor.Proofs.Session.Verdict
import Compositor.Proofs.Table
import Compositor.Proofs.Text.Lossy
import Compositor.Proofs.Text.Trimming
import Compositor.Proofs.Timeline.Building
import Compositor.Proofs.Timeline.Check
import Compositor.Proofs.Timeline.Equality
import Compositor.Proofs.Timeline.Problems
import Compositor.Proofs.Timeline.Ranges
import Compositor.Proofs.Timeline.Respelling
import Compositor.Proofs.Timeline.RoundTrip
import Compositor.Quantity
import Compositor.Session.Manifest
import Compositor.Session.Run
import Compositor.Session.RunId
import Compositor.Session.Scratch
import Compositor.Table
import Compositor.Text.Blank
import Compositor.Text.Printable
import Compositor.Text.Shown
import Compositor.Text.Utf8
import Compositor.Timeline.Basic
import Compositor.Timeline.Builder
import Compositor.Timeline.Check
import Compositor.Timeline.Loading
import Compositor.Timeline.Payload
