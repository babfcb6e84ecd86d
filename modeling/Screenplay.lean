import Screenplay.CommandLine.Arguments
import Screenplay.CommandLine.Session
import Screenplay.Compression.Bits
import Screenplay.Compression.Deflate
import Screenplay.Compression.PrefixCode
import Screenplay.Compression.Zlib
import Screenplay.Decimal.Double
import Screenplay.Decimal.Fixed
import Screenplay.Decimal.Layout
import Screenplay.Decimal.Nearest
import Screenplay.Decimal.Shortest
import Screenplay.Device.Desktop
import Screenplay.Device.Input
import Screenplay.Device.Keys
import Screenplay.Files.Path
import Screenplay.Files.Picture
import Screenplay.Files.Store
import Screenplay.Image.Edges
import Screenplay.Image.FileFormat
import Screenplay.Image.Frame
import Screenplay.Image.Gray
import Screenplay.Image.Png
import Screenplay.Image.Png.Animation
import Screenplay.Image.Png.Chunk
import Screenplay.Image.Png.Filter
import Screenplay.Image.Png.Flaw
import Screenplay.Image.Png.Header
import Screenplay.Image.Png.Interlace
import Screenplay.Image.Png.Picture
import Screenplay.Json.Decoder
import Screenplay.Json.Draft
import Screenplay.Json.Fault
import Screenplay.Json.Glyph
import Screenplay.Json.Numeral
import Screenplay.Json.Pointer
import Screenplay.Json.Printer
import Screenplay.Json.Value
import Screenplay.Main
import Screenplay.Matching.ContentHash
import Screenplay.Matching.LocationCache
import Screenplay.Matching.Matcher
import Screenplay.Matching.Offsets
import Screenplay.Matching.Options
import Screenplay.Matching.Score
import Screenplay.Matching.Search
import Screenplay.Point
import Screenplay.Run.Control
import Screenplay.Run.Engine
import Screenplay.Run.Event
import Screenplay.Run.EventJson
import Screenplay.Run.Performer
import Screenplay.Run.Report
import Screenplay.Run.Shared
import Screenplay.Run.Walk
import Screenplay.Scenario.Action
import Screenplay.Scenario.Basic
import Screenplay.Scenario.Comparison
import Screenplay.Scenario.Condition
import Screenplay.Scenario.Decode
import Screenplay.Scenario.Encode
import Screenplay.Scenario.Load
import Screenplay.Scenario.Schema
import Screenplay.Scenario.Templates
import Screenplay.Scenario.Validate
import Screenplay.Screen.Source
import Screenplay.Stage.Judgement
import Screenplay.Stage.Scene
import Screenplay.Stage.Script
import Screenplay.Text.Invisible
import Screenplay.Text.Quoted
import Screenplay.Proofs.Evaluation
import Screenplay.Proofs.Steps
import Screenplay.Proofs.Simulation
import Screenplay.Proofs.Weight
import Screenplay.Proofs.Offsets
import Screenplay.Proofs.Search
import Screenplay.Proofs.Finding
import Screenplay.Proofs.Remembering
import Screenplay.Proofs.ImageCheck
import Screenplay.Proofs.Chronicle
import Screenplay.Proofs.Reaching
import Screenplay.Proofs.Nesting
import Screenplay.Proofs.Mirroring
import Screenplay.Proofs.Calls
import Screenplay.Proofs.Watching
import Screenplay.Proofs.Accounting
import Screenplay.Proofs.Stopping
import Screenplay.Proofs.Accepting
import Screenplay.Proofs.DryRun
import Screenplay.Proofs.Isolation
import Screenplay.Proofs.Contents
import Screenplay.Proofs.Timeless
import Screenplay.Proofs.Playing
import Screenplay.Proofs.Preview
import Screenplay.Proofs.Dragging
import Screenplay.Proofs.Gestures
import Screenplay.Proofs.KeySequences
import Screenplay.Proofs.Records
import Screenplay.Proofs.Recency
import Screenplay.Proofs.Answering
import Screenplay.Proofs.Strictness
import Screenplay.Proofs.Interleaving
import Screenplay.Proofs.Cancelling
import Screenplay.Proofs.Ownership
import Screenplay.Proofs.Edits
import Screenplay.Proofs.Tables
import Screenplay.Proofs.Conditions
import Screenplay.Proofs.Editing
import Screenplay.Proofs.Numerals
import Screenplay.Proofs.Spelling
import Screenplay.Proofs.Tolerance
import Screenplay.Proofs.Encoding
import Screenplay.Proofs.Judgements
import Screenplay.Proofs.RoundTrip
import Screenplay.Proofs.FrameSize
import Screenplay.Proofs.Freshness
import Screenplay.Proofs.Capturing
import Screenplay.Proofs.Validity
import Screenplay.Proofs.Allowing
import Screenplay.Proofs.Supplying
import Screenplay.Proofs.Covering
import Screenplay.Proofs.Publishing
import Screenplay.Proofs.Quotient
import Screenplay.Proofs.Rounding
import Screenplay.Proofs.Steering
import Screenplay.Proofs.Locating
import Screenplay.Proofs.Listing
import Screenplay.Proofs.Outward
import Screenplay.Proofs.Comparing
import Screenplay.Proofs.Scanning
import Screenplay.Proofs.Lowering
import Screenplay.Proofs.Rejecting
import Screenplay.Proofs.Retaining
import Screenplay.Proofs.Refinding
import Screenplay.Proofs.Correlating
import Screenplay.Proofs.Cropping
import Screenplay.Proofs.Rectangles
import Screenplay.Proofs.EdgeMaps
import Screenplay.Proofs.Relighting
import Screenplay.Proofs.SelfMatch
import Screenplay.Proofs.Recolouring
