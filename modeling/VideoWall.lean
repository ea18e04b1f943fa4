import VideoWall.Bitstream.Annexb
import VideoWall.Bitstream.Avcc
import VideoWall.Bitstream.Bytes
import VideoWall.ByName
import VideoWall.CommandLine.Grammar
import VideoWall.CommandLine.Reading
import VideoWall.Config.Basic
import VideoWall.Config.Check
import VideoWall.Console.Basic
import VideoWall.Console.Drawing
import VideoWall.Console.Keys
import VideoWall.Console.Tile
import VideoWall.Files.Basic
import VideoWall.Files.Document
import VideoWall.Geometry.Scalar
import VideoWall.Geometry.Viewport
import VideoWall.Json.Decode
import VideoWall.Json.Lenient
import VideoWall.Json.Outline
import VideoWall.Json.Problem
import VideoWall.Json.Value
import VideoWall.Log.Filter
import VideoWall.Main
import VideoWall.Media.DecoderQueue
import VideoWall.Media.Element
import VideoWall.Media.Frame
import VideoWall.Media.Letterbox
import VideoWall.Media.Scaler
import VideoWall.Numeral.Binary
import VideoWall.Numeral.Decimal
import VideoWall.Numeral.Shortest
import VideoWall.Numeral.Word
import VideoWall.Overlay.Renderer
import VideoWall.Playback.Engine
import VideoWall.Playback.FetchLoop
import VideoWall.Playback.Manifest
import VideoWall.Player.Registry
import VideoWall.Player.Session
import VideoWall.Playlist.Parser
import VideoWall.Playlist.Basic
import VideoWall.Polling.Backoff
import VideoWall.Polling.Feed
import VideoWall.Polling.Poller
import VideoWall.Program.Invocation
import VideoWall.Program.Run
import VideoWall.Proofs.Bitstream.Words
import VideoWall.Proofs.Console.History
import VideoWall.Proofs.Console.Overlays
import VideoWall.Proofs.Media.Epochs
import VideoWall.Proofs.Media.Lifetime
import VideoWall.Proofs.Player.AtRest
import VideoWall.Proofs.Player.Attached
import VideoWall.Proofs.Player.Attachments
import VideoWall.Proofs.Player.Custody
import VideoWall.Proofs.Player.Failures
import VideoWall.Proofs.Player.History
import VideoWall.Proofs.Player.Landings
import VideoWall.Proofs.Player.Ledger
import VideoWall.Proofs.Player.Moves
import VideoWall.Proofs.Player.Notes
import VideoWall.Proofs.Player.Operations
import VideoWall.Proofs.Player.RefreshClock
import VideoWall.Proofs.Player.Retries
import VideoWall.Proofs.Player.Steps
import VideoWall.Proofs.Player.Teardown
import VideoWall.Proofs.Playback.Incidents
import VideoWall.Proofs.Playback.Order
import VideoWall.Proofs.Playlist.Windows
import VideoWall.Proofs.Polling.Feeds
import VideoWall.Proofs.Polling.History
import VideoWall.Proofs.Polling.Sessions
import VideoWall.Proofs.Transport.Demuxing
import VideoWall.Proofs.Transport.Muxing
import VideoWall.Proofs.Transport.Packets
import VideoWall.Proofs.Transport.Sections
import VideoWall.Proofs.Transport.Units
import VideoWall.Proofs.Walks
import VideoWall.Proofs.Wall.History
import VideoWall.Proofs.Wall.InStep
import VideoWall.Proofs.Wall.Operations
import VideoWall.Proofs.Wall.Teardown
import VideoWall.Raster.Blend
import VideoWall.Raster.Canvas
import VideoWall.Raster.Scaling
import VideoWall.Recorder.Camera
import VideoWall.Recorder.Client
import VideoWall.Recorder.Deletion
import VideoWall.Recorder.DeletionJob
import VideoWall.Recorder.Detection
import VideoWall.Recorder.Dialogue
import VideoWall.Recorder.Failure
import VideoWall.Recorder.Ptz
import VideoWall.Recorder.Stream
import VideoWall.Recorder.Wire
import VideoWall.Rehearsal.Notation
import VideoWall.Rehearsal.Player
import VideoWall.Rehearsal.Screen
import VideoWall.Rehearsal.Server
import VideoWall.Rehearsal.Stage
import VideoWall.Report
import VideoWall.Restream.Credentials
import VideoWall.Snapshot.Basic
import VideoWall.Snapshot.Calendar
import VideoWall.Terminal.Area
import VideoWall.Terminal.Shapes
import VideoWall.Terminal.Buffer
import VideoWall.Terminal.Line
import VideoWall.Terminal.Wrap
import VideoWall.Text.Base64
import VideoWall.Text.Blank
import VideoWall.Text.Cluster
import VideoWall.Text.Columns
import VideoWall.Text.Hex
import VideoWall.Text.Utf8
import VideoWall.Theme
import VideoWall.Toast
import VideoWall.Transport.Demuxer
import VideoWall.Transport.Packet
import VideoWall.Transport.Section
import VideoWall.Transport.Unit
import VideoWall.Url.Basic
import VideoWall.Url.Edit
import VideoWall.Url.Host
import VideoWall.Url.Parser
import VideoWall.Url.Percent
import VideoWall.Wall.Calculation
import VideoWall.Wall.Controller
import VideoWall.Wall.Layout
import VideoWall.Wall.View
import VideoWall.Proofs.Player.Engines
import VideoWall.Proofs.Numeral.Doubles
import VideoWall.Proofs.Numeral.Quotients
import VideoWall.Proofs.Playlist.Clock
import VideoWall.Proofs.Playback.Account
import VideoWall.Proofs.Playback.Budget
import VideoWall.Proofs.Wall.Disturbance
import VideoWall.Proofs.Polling.Schedule
import VideoWall.Proofs.Console.Order
import VideoWall.Proofs.Geometry.Exact
import VideoWall.Proofs.Overlay.Compositing
import VideoWall.Proofs.Overlay.Painting
import VideoWall.Proofs.Raster.Places
import VideoWall.Proofs.Snapshot.Composition
import VideoWall.Proofs.Wall.Pages
import VideoWall.Proofs.Text.Lines
import VideoWall.Proofs.Numeral.Numerals
import VideoWall.Proofs.Playlist.Written
import VideoWall.Proofs.Playlist.RoundTrip
import VideoWall.Proofs.Playlist.Numbering
import VideoWall.Proofs.Playback.Window
import VideoWall.Proofs.Player.Wishes
import VideoWall.Proofs.Wall.Watching
import VideoWall.Proofs.Console.Focus
import VideoWall.Proofs.Transport.Bundles
import VideoWall.Proofs.Player.Refreshes
import VideoWall.Proofs.Overlay.Strokes
import VideoWall.Proofs.Wall.Grids
import VideoWall.Proofs.Console.Cells
import VideoWall.Proofs.Transport.Searches
import VideoWall.Proofs.Text.Boundaries
import VideoWall.Proofs.Playlist.Attributes
import VideoWall.Proofs.Bitstream.Frames
import VideoWall.Proofs.Bitstream.Records
import VideoWall.Proofs.Geometry.Viewports
import VideoWall.Proofs.Json.Records
import VideoWall.Proofs.Polling.Pace
import VideoWall.Proofs.Player.Dates
import VideoWall.Proofs.Config.ClockRanges
import VideoWall.Proofs.Text.Decoding
import VideoWall.Proofs.Url.Percent
import VideoWall.Proofs.Url.Segments
import VideoWall.Proofs.Recorder.Endpoints
import VideoWall.Proofs.Url.Authorities
import VideoWall.Files.Disk
import VideoWall.Proofs.Playback.Sources
import VideoWall.Proofs.Files.Disks
import VideoWall.Proofs.Snapshot.Saved
import VideoWall.Proofs.Playback.Feeding
import VideoWall.Proofs.Bitstream.StartCodes
import VideoWall.Proofs.Media.Waiting
import VideoWall.Proofs.Media.Awaited
import VideoWall.Proofs.Polling.Generations
import VideoWall.Proofs.CommandLine.Words
import VideoWall.Proofs.Wall.Accepted
import VideoWall.Proofs.Wall.Arithmetic
import VideoWall.Proofs.Console.Toasts
import VideoWall.Proofs.Restream.Escapes
import VideoWall.Proofs.Url.Logins
import VideoWall.Proofs.Restream.Credentials
import VideoWall.Proofs.Media.Painting
import VideoWall.Proofs.Files.Documents
import VideoWall.Proofs.Json.Spellings
import VideoWall.Proofs.Wall.Remembered
import VideoWall.Proofs.Recorder.Talks
import VideoWall.Proofs.Recorder.Moves
import VideoWall.Proofs.Rehearsal.Stages
import VideoWall.Proofs.Rehearsal.Trials
