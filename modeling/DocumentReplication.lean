import DocumentReplication.Bytes
import DocumentReplication.Bytes.LittleEndian
import DocumentReplication.ChangeVector
import DocumentReplication.ChangeVector.Text
import DocumentReplication.Commit.Context
import DocumentReplication.Commit.Resolution
import DocumentReplication.Commit.Scheduler
import DocumentReplication.Commit.Slice
import DocumentReplication.Commit.Slice.Json
import DocumentReplication.Commit.Writer
import DocumentReplication.Connection.Basic
import DocumentReplication.Connection.Listener
import DocumentReplication.Connection.Node
import DocumentReplication.Connection.Progress
import DocumentReplication.Connection.Registry
import DocumentReplication.Dictionary
import DocumentReplication.Digest.Checksum
import DocumentReplication.Digest.ContentHash
import DocumentReplication.Fanout.Barrier
import DocumentReplication.Fanout.Channel
import DocumentReplication.Fanout.Lifecycle
import DocumentReplication.Fanout.Queue
import DocumentReplication.Fanout.References
import DocumentReplication.Fanout.Routing
import DocumentReplication.Fanout.Workers
import DocumentReplication.Fault
import DocumentReplication.Inspection
import DocumentReplication.Json.Parsing
import DocumentReplication.Json.Reading
import DocumentReplication.Json.Text
import DocumentReplication.Json.Value
import DocumentReplication.Main
import DocumentReplication.Proofs.ChangeVector.Entries
import DocumentReplication.Proofs.ChangeVector.Join
import DocumentReplication.Proofs.ChangeVector.Lossless
import DocumentReplication.Proofs.ChangeVector.Order
import DocumentReplication.Proofs.ChangeVector.Semilattice
import DocumentReplication.Proofs.ChangeVector.Shortcuts
import DocumentReplication.Proofs.ChangeVector.Text
import DocumentReplication.Proofs.ChangeVector.Width
import DocumentReplication.Proofs.Commit.Accounting
import DocumentReplication.Proofs.Commit.Accumulation
import DocumentReplication.Proofs.Commit.Advancement
import DocumentReplication.Proofs.Commit.Agreement
import DocumentReplication.Proofs.Commit.Application
import DocumentReplication.Proofs.Commit.Causality
import DocumentReplication.Proofs.Commit.Completion
import DocumentReplication.Proofs.Commit.ContentAddressing
import DocumentReplication.Proofs.Commit.Convergence
import DocumentReplication.Proofs.Commit.Dropping
import DocumentReplication.Proofs.Commit.Etags
import DocumentReplication.Proofs.Commit.Execution
import DocumentReplication.Proofs.Commit.Gathering
import DocumentReplication.Proofs.Commit.History
import DocumentReplication.Proofs.Commit.Isolation
import DocumentReplication.Proofs.Commit.Knowledge
import DocumentReplication.Proofs.Commit.Log
import DocumentReplication.Proofs.Commit.Merging
import DocumentReplication.Proofs.Commit.Ownership
import DocumentReplication.Proofs.Commit.Readability
import DocumentReplication.Proofs.Commit.Replay
import DocumentReplication.Proofs.Commit.Resend
import DocumentReplication.Proofs.Commit.Retention
import DocumentReplication.Proofs.Commit.Room
import DocumentReplication.Proofs.Commit.Settled
import DocumentReplication.Proofs.Commit.SliceDocument
import DocumentReplication.Proofs.Commit.Staleness
import DocumentReplication.Proofs.Commit.Stripped
import DocumentReplication.Proofs.Commit.Validation
import DocumentReplication.Proofs.Commit.Writer
import DocumentReplication.Proofs.Connection.Acknowledgement
import DocumentReplication.Proofs.Connection.Attachments
import DocumentReplication.Proofs.Connection.Conversation
import DocumentReplication.Proofs.Connection.Events
import DocumentReplication.Proofs.Connection.Exchange
import DocumentReplication.Proofs.Connection.Past
import DocumentReplication.Proofs.Connection.Pieces
import DocumentReplication.Proofs.Connection.Placement
import DocumentReplication.Proofs.Connection.Ready
import DocumentReplication.Proofs.Connection.Registry
import DocumentReplication.Proofs.Connection.Rejection
import DocumentReplication.Proofs.Connection.Resend
import DocumentReplication.Proofs.Connection.Turn
import DocumentReplication.Proofs.Digest.ContentHash
import DocumentReplication.Proofs.Digest.Crc32
import DocumentReplication.Proofs.Fanout.Barrier
import DocumentReplication.Proofs.Fanout.Distribution
import DocumentReplication.Proofs.Fanout.Lifecycle
import DocumentReplication.Proofs.Fanout.Queue
import DocumentReplication.Proofs.Fanout.Resend
import DocumentReplication.Proofs.Fanout.Workers
import DocumentReplication.Proofs.Json.Parsing
import DocumentReplication.Proofs.Json.Reading
import DocumentReplication.Proofs.Json.Text
import DocumentReplication.Proofs.Settings.InstanceIds
import DocumentReplication.Proofs.Store.PlainTables
import DocumentReplication.Proofs.Store.ReadBack
import DocumentReplication.Proofs.Store.RoundTrip
import DocumentReplication.Proofs.Store.TransactionalMap
import DocumentReplication.Proofs.Store.View
import DocumentReplication.Proofs.Time.Calendar
import DocumentReplication.Proofs.Time.InternetDate
import DocumentReplication.Proofs.Wire.Arrival
import DocumentReplication.Proofs.Wire.Batch
import DocumentReplication.Proofs.Wire.Corruption
import DocumentReplication.Proofs.Wire.FieldReader
import DocumentReplication.Proofs.Wire.Framing
import DocumentReplication.Proofs.Wire.Record
import DocumentReplication.Proofs.Wire.Reply
import DocumentReplication.Proofs.Wire.Sending
import DocumentReplication.Proofs.Wire.Spool
import DocumentReplication.Proofs.Wire.SpoolFile
import DocumentReplication.Proofs.Work
import DocumentReplication.Settings.CommandLine
import DocumentReplication.Settings.Document
import DocumentReplication.Settings.Endpoint
import DocumentReplication.Settings.Node
import DocumentReplication.Settings.Replication
import DocumentReplication.Store.Partition
import DocumentReplication.Store.Record
import DocumentReplication.Store.StoredField
import DocumentReplication.Store.Table
import DocumentReplication.Store.Transaction
import DocumentReplication.Text.CaseTable
import DocumentReplication.Text.Encoding
import DocumentReplication.Text.Lowercase
import DocumentReplication.Text.Numeral
import DocumentReplication.Text.Split
import DocumentReplication.Time.Calendar
import DocumentReplication.Time.Elapsed
import DocumentReplication.Time.InternetDate
import DocumentReplication.Time.Timestamp
import DocumentReplication.Toml.Document
import DocumentReplication.Toml.Number
import DocumentReplication.Toml.Scanner
import DocumentReplication.Toml.Text
import DocumentReplication.Toml.Value
import DocumentReplication.Wire.Batch
import DocumentReplication.Wire.Descriptor
import DocumentReplication.Wire.Field
import DocumentReplication.Wire.FieldReader
import DocumentReplication.Wire.Frame
import DocumentReplication.Wire.Intake
import DocumentReplication.Wire.Item
import DocumentReplication.Wire.Kind
import DocumentReplication.Wire.Message
import DocumentReplication.Wire.Reader
import DocumentReplication.Wire.Reply
import DocumentReplication.Wire.Spool
import DocumentReplication.Wire.SpoolFile
