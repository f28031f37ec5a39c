import PositionSync.Backoff
import PositionSync.Cluster.Basic
import PositionSync.Cluster.Calls
import PositionSync.Cluster.Flushing
import PositionSync.Cluster.Settling
import PositionSync.Command.Arguments
import PositionSync.Command.Output
import PositionSync.Command.Run
import PositionSync.Config.Basic
import PositionSync.Config.Reading
import PositionSync.Decimal.Shortest
import PositionSync.Decimal.Unsigned
import PositionSync.Error
import PositionSync.Files.Path
import PositionSync.Files.System
import PositionSync.Files.Tree
import PositionSync.Json.Decoder
import PositionSync.Json.Lexeme
import PositionSync.Json.Number
import PositionSync.Json.Value
import PositionSync.Listener.Named
import PositionSync.Listener.Registry
import PositionSync.Log.Basic
import PositionSync.Log.Named
import PositionSync.Log.Network
import PositionSync.Main
import PositionSync.Message.Basic
import PositionSync.Message.Wire
import PositionSync.Position.Attributes
import PositionSync.Position.Basic
import PositionSync.Position.Listing
import PositionSync.Position.Pending
import PositionSync.Position.Snapshot
import PositionSync.Position.Store
import PositionSync.Proofs.Cluster.Actions
import PositionSync.Proofs.Cluster.Convergence
import PositionSync.Proofs.Cluster.Echo
import PositionSync.Proofs.Cluster.Joining
import PositionSync.Proofs.Cluster.Outlook
import PositionSync.Proofs.Cluster.Transitions
import PositionSync.Proofs.Cluster.Views
import PositionSync.Proofs.Json.Lexemes
import PositionSync.Proofs.Json.Reading
import PositionSync.Proofs.Message.RoundTrip
import PositionSync.Proofs.Position.Table
import PositionSync.Proofs.Service.Broadcast
import PositionSync.Proofs.Service.Pending
import PositionSync.Proofs.Service.Runs
import PositionSync.Proofs.Service.Steps
import PositionSync.Proofs.SortedMap
import PositionSync.Proofs.Text.Utf8
import PositionSync.Reading.Fault
import PositionSync.Service.Basic
import PositionSync.Service.Host
import PositionSync.Service.Lifecycle
import PositionSync.Service.Schedule
import PositionSync.SortedMap
import PositionSync.Source.Batch
import PositionSync.Source.FileSource
import PositionSync.Source.Follower
import PositionSync.Source.Line
import PositionSync.Source.Position
import PositionSync.Text.Basic
import PositionSync.Text.Printable
import PositionSync.Text.Utf8
import PositionSync.Time.Duration
import PositionSync.Time.Timestamp
import PositionSync.Yaml.Cursor
import PositionSync.Yaml.Document
import PositionSync.Yaml.Event
import PositionSync.Yaml.Layout
import PositionSync.Yaml.Record
import PositionSync.Yaml.Resolution
import PositionSync.Yaml.Scalar
import PositionSync.Yaml.Token
import PositionSync.Proofs.Source.Batches
import PositionSync.Proofs.Source.Polling
import PositionSync.Proofs.Decimal.Unsigned
import PositionSync.Proofs.Time.Timestamp
import PositionSync.Proofs.Position.Snapshot
import PositionSync.Proofs.Files.Path
import PositionSync.Proofs.Files.System
import PositionSync.Proofs.Files.Tree
import PositionSync.Proofs.Position.Store
import PositionSync.Proofs.Service.Restarts
import PositionSync.Proofs.Source.Resuming
import PositionSync.Proofs.Files.Changes
import PositionSync.Proofs.Files.Directories
import PositionSync.Proofs.Position.Replacing
import PositionSync.Proofs.Position.Persistence
import PositionSync.Proofs.Service.Session
import PositionSync.Proofs.Service.Stages
import PositionSync.Proofs.Service.Stopping
import PositionSync.Proofs.Cluster.Gossip
import PositionSync.Proofs.Log.Accounts
import PositionSync.Proofs.Service.Periodic
import PositionSync.Proofs.Json.Strings
import PositionSync.Proofs.Json.Trees
import PositionSync.Proofs.Json.Decoding
import PositionSync.Proofs.Position.Entries
import PositionSync.Proofs.Json.Spelling
import PositionSync.Proofs.Message.Contents
import PositionSync.Proofs.Service.Deliveries
import PositionSync.Proofs.Service.Reloads
import PositionSync.Proofs.Json.Numbers
import PositionSync.Proofs.Position.Loading
import PositionSync.Proofs.Service.Attempts
import PositionSync.Proofs.Source.Faults
import PositionSync.Proofs.Time.Duration
import PositionSync.Proofs.Backoff
import PositionSync.Proofs.Source.Missing
import PositionSync.Proofs.Source.Waiting
import PositionSync.Proofs.Listener.Notifications
import PositionSync.Proofs.Source.Texts
import PositionSync.Proofs.Command.Forgetting
import PositionSync.Proofs.Yaml.Scalars
import PositionSync.Proofs.Yaml.Layouts
import PositionSync.Proofs.Yaml.Tokens
import PositionSync.Proofs.Yaml.Nodes
import PositionSync.Proofs.Yaml.Records
import PositionSync.Proofs.Config.Reading
import PositionSync.Proofs.Source.Terminators
import PositionSync.Proofs.Position.Order
import PositionSync.Proofs.Command.Showing
import PositionSync.Proofs.Source.Sharing
