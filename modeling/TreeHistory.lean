import TreeHistory.Text.Blank
import TreeHistory.Text.Printable
import TreeHistory.Text.Alphanumeric
import TreeHistory.Text.Quoted
import TreeHistory.Path
import TreeHistory.Revision
import TreeHistory.Change
import TreeHistory.Json.Value
import TreeHistory.Json.Reader
import TreeHistory.Tree.Node
import TreeHistory.Tree.Basic
import TreeHistory.Json.Forms
import TreeHistory.Sql.Double
import TreeHistory.Sql.Value
import TreeHistory.Sql.Printf
import TreeHistory.Sql.Functions
import TreeHistory.Sql.JsonNode
import TreeHistory.Sql.JsonNode.Read
import TreeHistory.Sql.JsonNode.Binary
import TreeHistory.Sql.JsonNode.Path
import TreeHistory.Sql.JsonFunctions
import TreeHistory.Sql.Aggregate
import TreeHistory.Sql.Ordering
import TreeHistory.Sql.Window
import TreeHistory.Sql.Lexer
import TreeHistory.Sql.Syntax
import TreeHistory.Sql.Calendar
import TreeHistory.Sql.Pattern
import TreeHistory.Sql.Common
import TreeHistory.Sql.Parser
import TreeHistory.Sql.Schema
import TreeHistory.Sql.Eval
import TreeHistory.Sql.Exec
import TreeHistory.Sql.Prepare
import TreeHistory.Sql.Connection
import TreeHistory.Store.Basic
import TreeHistory.Store.Query
import TreeHistory.Store.Statement
import TreeHistory.Store.Buffer
import TreeHistory.Store.Transaction
import TreeHistory.Feed.Error
import TreeHistory.Indexer.Error
import TreeHistory.Ingest.Schedule
import TreeHistory.Ingest.Apply
import TreeHistory.Indexer.Basic
import TreeHistory.Date.Civil
import TreeHistory.Date.Rfc3339
import TreeHistory.Text.Utf8
import TreeHistory.Feed.Record
import TreeHistory.Feed.Lines
import TreeHistory.Config.Toml
import TreeHistory.Config.Basic
import TreeHistory.Config.Regex
import TreeHistory.Config.Filter
import TreeHistory.Text.Decimal
import TreeHistory.Cli.Args
import TreeHistory.Store.File
import TreeHistory.Cli.Run
import TreeHistory.Cli.Workspace
import TreeHistory.Main
import TreeHistory.Proofs.Except
import TreeHistory.Proofs.Tree.WellFormed
import TreeHistory.Proofs.Tree.Rebuild
import TreeHistory.Proofs.Store.Tables
import TreeHistory.Proofs.Store.Writers
import TreeHistory.Proofs.Store.Committed
import TreeHistory.Proofs.Ingest.Steps
import TreeHistory.Proofs.Ingest.Delta
import TreeHistory.Proofs.Indexer.History
import TreeHistory.Proofs.Indexer.Reachable
import TreeHistory.Proofs.Indexer.PointInTime
import TreeHistory.Proofs.Ingest.Allocation
import TreeHistory.Proofs.Store.Reordering
import TreeHistory.Proofs.Store.Batching
import TreeHistory.Proofs.Indexer.Batching
import TreeHistory.Proofs.Indexer.Budget
import TreeHistory.Proofs.Indexer.Recovery
import TreeHistory.Proofs.Indexer.Acceptance
import TreeHistory.Proofs.Ingest.Failures
import TreeHistory.Proofs.Indexer.Revisions
import TreeHistory.Proofs.Ingest.Stable
import TreeHistory.Proofs.Ingest.Plan
import TreeHistory.Proofs.Ingest.CopySource
import TreeHistory.Proofs.Ingest.DeepCopy
import TreeHistory.Proofs.Ingest.CopyTree
import TreeHistory.Proofs.Indexer.CopiedSubtree
import TreeHistory.Proofs.Ingest.EventOrder
import TreeHistory.Proofs.Path.Canonical
import TreeHistory.Proofs.Tree.Edits
import TreeHistory.Proofs.Ingest.Unplanned
import TreeHistory.Proofs.Indexer.Violations
import TreeHistory.Proofs.Indexer.CommittedRevision
import TreeHistory.Proofs.Indexer.Rollback
import TreeHistory.Proofs.Store.BatchWriter
import TreeHistory.Proofs.Feed.Framing
import TreeHistory.Proofs.Ingest.Origins
import TreeHistory.Proofs.Indexer.Lineage
import TreeHistory.Proofs.Ingest.ContentSettings
import TreeHistory.Proofs.Tree.Relabel
import TreeHistory.Proofs.Store.Relabel
import TreeHistory.Proofs.Ingest.Mirror
import TreeHistory.Proofs.Ingest.Renumber
import TreeHistory.Proofs.Indexer.Renumbered
import TreeHistory.Proofs.Indexer.Resume
