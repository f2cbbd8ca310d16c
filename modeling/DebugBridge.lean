import DebugBridge.Breakpoint.Table
import DebugBridge.CommandLine.Options
import DebugBridge.CommandLine.Program
import DebugBridge.CommandLine.Service
import DebugBridge.Engine.Command
import DebugBridge.Engine.Connect
import DebugBridge.Engine.Correlator
import DebugBridge.Engine.Event
import DebugBridge.Engine.Handshake
import DebugBridge.Engine.LineBuffer
import DebugBridge.Engine.Network
import DebugBridge.Engine.Simulated
import DebugBridge.Json.Binary64
import DebugBridge.Json.Lexer
import DebugBridge.Json.Number
import DebugBridge.Json.Printer
import DebugBridge.Json.Reader
import DebugBridge.Json.Value
import DebugBridge.Log
import DebugBridge.Main
import DebugBridge.Proofs.Breakpoint.Board
import DebugBridge.Proofs.Breakpoint.HitCount
import DebugBridge.Proofs.Breakpoint.Identity
import DebugBridge.Proofs.Breakpoint.Standing
import DebugBridge.Proofs.Engine.Buffering
import DebugBridge.Proofs.Engine.Commands
import DebugBridge.Proofs.Engine.Correlation
import DebugBridge.Proofs.Engine.Handshake
import DebugBridge.Proofs.Engine.Lines
import DebugBridge.Proofs.Engine.Rendering
import DebugBridge.Proofs.Entries
import DebugBridge.Proofs.Json.Lexemes
import DebugBridge.Proofs.Json.Reading
import DebugBridge.Proofs.Protocol.Announcement
import DebugBridge.Proofs.Protocol.Framing
import DebugBridge.Proofs.Protocol.Truncation
import DebugBridge.Proofs.Scope.Caching
import DebugBridge.Proofs.Scope.Classification
import DebugBridge.Proofs.Scope.Sigils
import DebugBridge.Proofs.Script.Balance
import DebugBridge.Proofs.Script.Cursors
import DebugBridge.Proofs.Script.Layout
import DebugBridge.Proofs.Script.LineEnds
import DebugBridge.Proofs.Script.Outline
import DebugBridge.Proofs.Script.Pieces
import DebugBridge.Proofs.Script.Positions
import DebugBridge.Proofs.Script.Respelling
import DebugBridge.Proofs.Script.Statements
import DebugBridge.Proofs.Script.Stretches
import DebugBridge.Proofs.Script.Truncation
import DebugBridge.Proofs.Script.Visits
import DebugBridge.Proofs.Session.Account
import DebugBridge.Proofs.Session.Arrival
import DebugBridge.Proofs.Session.Assignment
import DebugBridge.Proofs.Session.Background
import DebugBridge.Proofs.Session.Citation
import DebugBridge.Proofs.Session.Conversation
import DebugBridge.Proofs.Session.Course
import DebugBridge.Proofs.Session.Departure
import DebugBridge.Proofs.Session.Dispatch
import DebugBridge.Proofs.Session.Exchange
import DebugBridge.Proofs.Session.Failures
import DebugBridge.Proofs.Session.Forwarding
import DebugBridge.Proofs.Session.Frames
import DebugBridge.Proofs.Session.Handling
import DebugBridge.Proofs.Session.History
import DebugBridge.Proofs.Session.LaunchOrder
import DebugBridge.Proofs.Session.Lifecycle
import DebugBridge.Proofs.Session.Likeness
import DebugBridge.Proofs.Session.Link
import DebugBridge.Proofs.Session.Listening
import DebugBridge.Proofs.Session.Mirror
import DebugBridge.Proofs.Session.Naming
import DebugBridge.Proofs.Session.Queue
import DebugBridge.Proofs.Session.Reference
import DebugBridge.Proofs.Session.Remains
import DebugBridge.Proofs.Session.Stops
import DebugBridge.Proofs.Session.Upshot
import DebugBridge.Proofs.Source.Mapping
import DebugBridge.Proofs.Source.Normalization
import DebugBridge.Proofs.Source.Resolution
import DebugBridge.Proofs.Source.Spelling
import DebugBridge.Proofs.Text.Decimal
import DebugBridge.Proofs.Text.Utf8
import DebugBridge.Protocol.Envelope
import DebugBridge.Protocol.Framing
import DebugBridge.Protocol.Request
import DebugBridge.Protocol.Schema
import DebugBridge.Scope.Cache
import DebugBridge.Scope.FileScopes
import DebugBridge.Script.Descent
import DebugBridge.Script.Fault
import DebugBridge.Script.Lexer
import DebugBridge.Script.Parser
import DebugBridge.Script.Syntax
import DebugBridge.Script.Token
import DebugBridge.Session.Connection
import DebugBridge.Session.Inspection
import DebugBridge.Session.Machine
import DebugBridge.Session.Message
import DebugBridge.Session.Reference
import DebugBridge.Session.Requests
import DebugBridge.Session.Run
import DebugBridge.Session.State
import DebugBridge.Session.Surroundings
import DebugBridge.Source.Files
import DebugBridge.Source.Path
import DebugBridge.Source.Resolver
import DebugBridge.Text.Blank
import DebugBridge.Text.Decimal
import DebugBridge.Text.Separated
import DebugBridge.Text.Utf8
import DebugBridge.Text.Visible
import DebugBridge.Proofs.Session.Listing
import DebugBridge.Proofs.Script.Declarations
import DebugBridge.Proofs.Script.Programs
