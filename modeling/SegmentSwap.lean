import SegmentSwap.Category
import SegmentSwap.Config.Basic
import SegmentSwap.Config.Environment
import SegmentSwap.Config.Location
import SegmentSwap.Deletion.Queue
import SegmentSwap.Event
import SegmentSwap.Failure
import SegmentSwap.Json.Reader
import SegmentSwap.Json.Value
import SegmentSwap.Json.Writer
import SegmentSwap.Kind
import SegmentSwap.Lineage.Basic
import SegmentSwap.Lineage.Document
import SegmentSwap.Lineage.Entry
import SegmentSwap.Lineage.State
import SegmentSwap.Lineage.View
import SegmentSwap.Number.Arithmetic
import SegmentSwap.Number.Binary64
import SegmentSwap.Number.Numeral
import SegmentSwap.Number.Quantity
import SegmentSwap.Number.Shortest
import SegmentSwap.Proofs.Deletion.Accounting
import SegmentSwap.Proofs.Deletion.Backing
import SegmentSwap.Proofs.Deletion.Balance
import SegmentSwap.Proofs.Deletion.Conservation
import SegmentSwap.Proofs.Deletion.Depth
import SegmentSwap.Proofs.Deletion.Outbox
import SegmentSwap.Proofs.Deletion.Recovery
import SegmentSwap.Proofs.Deletion.Retention
import SegmentSwap.Proofs.Deletion.Safety
import SegmentSwap.Proofs.Deletion.Undone
import SegmentSwap.Proofs.Deletion.Workers
import SegmentSwap.Proofs.Json.Layout
import SegmentSwap.Proofs.Json.Numeral
import SegmentSwap.Proofs.Json.Shown
import SegmentSwap.Proofs.Json.Text
import SegmentSwap.Proofs.Lineage.Depth
import SegmentSwap.Proofs.Lineage.Document
import SegmentSwap.Proofs.Lineage.Exclusive
import SegmentSwap.Proofs.Lineage.Format
import SegmentSwap.Proofs.Lineage.Gains
import SegmentSwap.Proofs.Lineage.Generations
import SegmentSwap.Proofs.Lineage.Growth
import SegmentSwap.Proofs.Lineage.Replacement
import SegmentSwap.Proofs.Lineage.Turned
import SegmentSwap.Proofs.Lineage.Update
import SegmentSwap.Proofs.Lineage.View
import SegmentSwap.Proofs.Number.Binary64
import SegmentSwap.Proofs.Protocol.Checks
import SegmentSwap.Proofs.Protocol.Commit
import SegmentSwap.Proofs.Protocol.Retry
import SegmentSwap.Proofs.Registry
import SegmentSwap.Proofs.Settings.Outcome
import SegmentSwap.Proofs.Store.Accepted
import SegmentSwap.Proofs.Store.Faithful
import SegmentSwap.Proofs.Store.Files
import SegmentSwap.Proofs.Store.Folder
import SegmentSwap.Proofs.Store.Locality
import SegmentSwap.Proofs.Store.Memory
import SegmentSwap.Proofs.Store.Names
import SegmentSwap.Proofs.Store.Record
import SegmentSwap.Proofs.Store.Refinement
import SegmentSwap.Proofs.Store.Returned
import SegmentSwap.Proofs.Store.Table
import SegmentSwap.Proofs.Store.Traceless
import SegmentSwap.Proofs.Store.Waiting
import SegmentSwap.Proofs.Tables.Damage
import SegmentSwap.Proofs.Tables.Isolation
import SegmentSwap.Proofs.Tables.Misplaced
import SegmentSwap.Proofs.Tables.Sameness
import SegmentSwap.Proofs.Text.Sorted
import SegmentSwap.Proofs.Text.Utf8
import SegmentSwap.Proofs.Time.Calendar
import SegmentSwap.Proofs.Time.Stamp
import SegmentSwap.Proofs.Traffic.Advance
import SegmentSwap.Proofs.Traffic.Alone
import SegmentSwap.Proofs.Traffic.Atomicity
import SegmentSwap.Proofs.Traffic.Attempt
import SegmentSwap.Proofs.Traffic.Basic
import SegmentSwap.Proofs.Traffic.Basis
import SegmentSwap.Proofs.Traffic.Briefing
import SegmentSwap.Proofs.Traffic.Commits
import SegmentSwap.Proofs.Traffic.Commuting
import SegmentSwap.Proofs.Traffic.Completion
import SegmentSwap.Proofs.Traffic.Contest
import SegmentSwap.Proofs.Traffic.Decision
import SegmentSwap.Proofs.Traffic.Declared
import SegmentSwap.Proofs.Traffic.Exclusivity
import SegmentSwap.Proofs.Traffic.Filing
import SegmentSwap.Proofs.Traffic.History
import SegmentSwap.Proofs.Traffic.Interference
import SegmentSwap.Proofs.Traffic.Overwriting
import SegmentSwap.Proofs.Traffic.Query
import SegmentSwap.Proofs.Traffic.Race
import SegmentSwap.Proofs.Traffic.Sound
import SegmentSwap.Proofs.Traffic.Staleness
import SegmentSwap.Proofs.Traffic.Step
import SegmentSwap.Proofs.Traffic.Stillness
import SegmentSwap.Proofs.Traffic.Visibility
import SegmentSwap.Protocol.Call
import SegmentSwap.Protocol.Checks
import SegmentSwap.Protocol.Queries
import SegmentSwap.Protocol.Refusal
import SegmentSwap.Protocol.Retry
import SegmentSwap.Protocol.Run
import SegmentSwap.Registry
import SegmentSwap.Session.Bureau
import SegmentSwap.Session.Script
import SegmentSwap.Session.Setup
import SegmentSwap.Session.Step
import SegmentSwap.Session.World
import SegmentSwap.Settings.File
import SegmentSwap.Settings.Loader
import SegmentSwap.Settings.Mode
import SegmentSwap.Store.Basic
import SegmentSwap.Store.Clock
import SegmentSwap.Store.Fault
import SegmentSwap.Store.FileStore
import SegmentSwap.Store.Folder
import SegmentSwap.Store.Memory
import SegmentSwap.Store.Record
import SegmentSwap.Store.Rival
import SegmentSwap.Store.TableName
import SegmentSwap.Store.Version
import SegmentSwap.Text.Base64
import SegmentSwap.Text.Basic
import SegmentSwap.Text.Cased
import SegmentSwap.Text.Digit
import SegmentSwap.Text.Lowercase
import SegmentSwap.Text.Newline
import SegmentSwap.Text.Printable
import SegmentSwap.Text.Quoted
import SegmentSwap.Text.Sorted
import SegmentSwap.Text.Utf8
import SegmentSwap.Time.Calendar
import SegmentSwap.Time.Instant
import SegmentSwap.Time.Stamp
import SegmentSwap.Yaml.Cursor
import SegmentSwap.Yaml.Fault
import SegmentSwap.Yaml.Graph
import SegmentSwap.Yaml.Graph.Merge
import SegmentSwap.Yaml.Graph.Reader
import SegmentSwap.Yaml.Loader
import SegmentSwap.Yaml.Moment
import SegmentSwap.Yaml.Number
import SegmentSwap.Yaml.Tag
import SegmentSwap.Yaml.Token
import SegmentSwap.Yaml.Token.Lexer
import SegmentSwap.Yaml.Token.Scalar
import SegmentSwap.Yaml.Token.Tag
import SegmentSwap.Yaml.Value
import SegmentSwap.Yaml.Value.Members
import SegmentSwap.Yaml.Value.OfGraph
import SegmentSwap.Yaml.Value.Shown
