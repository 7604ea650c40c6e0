import ScriptHost.CommandLine.Failure
import ScriptHost.CommandLine.Frames
import ScriptHost.CommandLine.Options
import ScriptHost.CommandLine.Run
import ScriptHost.CommandLine.SavedState
import ScriptHost.CommandLine.Scripts
import ScriptHost.Component
import ScriptHost.Config
import ScriptHost.Decimal.Binary
import ScriptHost.Decimal.Digits
import ScriptHost.Decimal.Layout
import ScriptHost.Decimal.Literal
import ScriptHost.Decimal.Shortest
import ScriptHost.Declaration
import ScriptHost.Error
import ScriptHost.Event
import ScriptHost.Exposed
import ScriptHost.Files.Path
import ScriptHost.Files.Tree
import ScriptHost.HostFunctions
import ScriptHost.Instance
import ScriptHost.Json.Document
import ScriptHost.Json.Records
import ScriptHost.Json.Shape
import ScriptHost.Json.Token
import ScriptHost.Json.Value
import ScriptHost.Main
import ScriptHost.Ordered
import ScriptHost.Proofs.CommandLine.Checks
import ScriptHost.Proofs.CommandLine.Endings
import ScriptHost.Proofs.CommandLine.Life
import ScriptHost.Proofs.CommandLine.SavedStates
import ScriptHost.Proofs.CommandLine.StateFiles
import ScriptHost.Proofs.Component.Activation
import ScriptHost.Proofs.Component.Blind
import ScriptHost.Proofs.Component.Countdown
import ScriptHost.Proofs.Component.EditorOnly
import ScriptHost.Proofs.Component.Edits
import ScriptHost.Proofs.Component.Errors
import ScriptHost.Proofs.Component.History
import ScriptHost.Proofs.Component.Lasting
import ScriptHost.Proofs.Component.Operations
import ScriptHost.Proofs.Component.Outdated
import ScriptHost.Proofs.Component.Recovery
import ScriptHost.Proofs.Component.Reload
import ScriptHost.Proofs.Component.Restoring
import ScriptHost.Proofs.Component.Stations
import ScriptHost.Proofs.Component.Waiting
import ScriptHost.Proofs.Decimal.Collecting
import ScriptHost.Proofs.Decimal.Covering
import ScriptHost.Proofs.Decimal.Exact
import ScriptHost.Proofs.Decimal.Nearest
import ScriptHost.Proofs.Decimal.Parts
import ScriptHost.Proofs.Decimal.Rounding
import ScriptHost.Proofs.Decimal.Scaling
import ScriptHost.Proofs.Decimal.Shortest
import ScriptHost.Proofs.Decimal.WellFormed
import ScriptHost.Proofs.Entries
import ScriptHost.Proofs.Files.Contents
import ScriptHost.Proofs.Files.Trees
import ScriptHost.Proofs.FirstMentions
import ScriptHost.Proofs.Instance.Broadcast
import ScriptHost.Proofs.Instance.Calls
import ScriptHost.Proofs.Instance.Capture
import ScriptHost.Proofs.Instance.Globals
import ScriptHost.Proofs.Instance.Handles
import ScriptHost.Proofs.Instance.Registered
import ScriptHost.Proofs.Instance.Steady
import ScriptHost.Proofs.Json.Documents
import ScriptHost.Proofs.Json.Numbers
import ScriptHost.Proofs.Json.Pretty
import ScriptHost.Proofs.Json.Tokens
import ScriptHost.Proofs.Script.Beginnings
import ScriptHost.Proofs.Script.Crossing
import ScriptHost.Proofs.Script.Globals
import ScriptHost.Proofs.Script.HostCalls
import ScriptHost.Proofs.Script.Images
import ScriptHost.Proofs.Script.Leaving
import ScriptHost.Proofs.Script.Likeness
import ScriptHost.Proofs.Script.Orders
import ScriptHost.Proofs.Script.Paths
import ScriptHost.Proofs.Script.Replacing
import ScriptHost.Proofs.Script.Returning
import ScriptHost.Proofs.Script.Rounds
import ScriptHost.Proofs.Script.Sequences
import ScriptHost.Proofs.Script.Tables
import ScriptHost.Proofs.Script.Worlds
import ScriptHost.Proofs.Script.Writes
import ScriptHost.Proofs.Snapshot.Codec
import ScriptHost.Proofs.Snapshot.Limits
import ScriptHost.Proofs.Snapshot.Normalising
import ScriptHost.Proofs.Snapshot.Numbers
import ScriptHost.Proofs.Tags.Attachments
import ScriptHost.Proofs.Tags.Declarations
import ScriptHost.Proofs.Tags.Lines
import ScriptHost.Proofs.Tags.Rescan
import ScriptHost.Proofs.Tags.Scan
import ScriptHost.Proofs.Tags.Shapes
import ScriptHost.Proofs.Tags.Variables
import ScriptHost.Proofs.Value.Normal
import ScriptHost.Proofs.Value.Placement
import ScriptHost.Proofs.Value.Plain
import ScriptHost.Proofs.Value.Structure
import ScriptHost.Proofs.Value.Tagged
import ScriptHost.Registry
import ScriptHost.Script.Entries
import ScriptHost.Script.Eval
import ScriptHost.Script.Exchange
import ScriptHost.Script.Flow
import ScriptHost.Script.Frame
import ScriptHost.Script.KeyMap
import ScriptHost.Script.Library
import ScriptHost.Script.Machine
import ScriptHost.Script.Numeral
import ScriptHost.Script.Operators
import ScriptHost.Script.Parser
import ScriptHost.Script.Room
import ScriptHost.Script.Run
import ScriptHost.Script.Slots
import ScriptHost.Script.Syntax
import ScriptHost.Script.Table
import ScriptHost.Script.Token
import ScriptHost.Script.Value
import ScriptHost.Script.World
import ScriptHost.Snapshot
import ScriptHost.Source
import ScriptHost.Tag
import ScriptHost.TagIndex
import ScriptHost.Text.Alphabetic
import ScriptHost.Text.Blank
import ScriptHost.Text.Lines
import ScriptHost.Text.Search
import ScriptHost.Text.Utf8
import ScriptHost.Value.Basic
import ScriptHost.Value.Json
import ScriptHost.Value.Tagged
