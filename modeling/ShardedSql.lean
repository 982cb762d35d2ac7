import ShardedSql.Cell.Decode
import ShardedSql.Pattern.Reader
import ShardedSql.Postgres.ConnectionText
import ShardedSql.Postgres.Pools
import ShardedSql.Postgres.Server
import ShardedSql.Postgres.StandardCodec
import ShardedSql.Rules.Document
import ShardedSql.Rules.Writing
import ShardedSql.Session
import ShardedSql.Settings.Logging
import ShardedSql.Sql.Reader
import ShardedSql.Url.Reader
import ShardedSql.Proofs.Adaptation.Capture
import ShardedSql.Proofs.Adaptation.PageBounds
import ShardedSql.Proofs.Adaptation.Placeholders
import ShardedSql.Proofs.Batch.Clearing
import ShardedSql.Proofs.Batch.Counts
import ShardedSql.Proofs.Batch.Entries
import ShardedSql.Proofs.Cell.GroupKey
import ShardedSql.Proofs.Cell.MaskedTexts
import ShardedSql.Proofs.Cell.NumberKeys
import ShardedSql.Proofs.Cell.NumberOrder
import ShardedSql.Proofs.Cursor.Comparable
import ShardedSql.Proofs.Cursor.FailedMoves
import ShardedSql.Proofs.Cursor.FailedSkipping
import ShardedSql.Proofs.Cursor.Ordered
import ShardedSql.Proofs.Execution.Acquisition
import ShardedSql.Proofs.Execution.CollectAll
import ShardedSql.Proofs.Execution.Conservation
import ShardedSql.Proofs.Execution.Dealing
import ShardedSql.Proofs.Execution.FailFast
import ShardedSql.Proofs.Execution.Handover
import ShardedSql.Proofs.Execution.KeptInstance
import ShardedSql.Proofs.Execution.PassedThrough
import ShardedSql.Proofs.Execution.PhaseOrder
import ShardedSql.Proofs.Execution.Phases
import ShardedSql.Proofs.Execution.Results
import ShardedSql.Proofs.Execution.Sharing
import ShardedSql.Proofs.Execution.SummedCounts
import ShardedSql.Proofs.Merge.Accumulation
import ShardedSql.Proofs.Merge.ColumnSteps
import ShardedSql.Proofs.Merge.DistinctPage
import ShardedSql.Proofs.Merge.DistinctRows
import ShardedSql.Proofs.Merge.GroupedPage
import ShardedSql.Proofs.Merge.Interaction
import ShardedSql.Proofs.Merge.MaskedColumns
import ShardedSql.Proofs.Merge.Page
import ShardedSql.Proofs.Merge.PageCut
import ShardedSql.Proofs.Merge.ScalarTotals
import ShardedSql.Proofs.Merge.ShardOrder
import ShardedSql.Proofs.Merge.SharedColumns
import ShardedSql.Proofs.Merge.SingleResult
import ShardedSql.Proofs.Merge.Totals
import ShardedSql.Proofs.Postgres.ForeignValues
import ShardedSql.Proofs.Postgres.LoggedAddresses
import ShardedSql.Proofs.Postgres.RoundTrips
import ShardedSql.Proofs.Route.Coverage
import ShardedSql.Proofs.Route.MergedMappings
import ShardedSql.Proofs.Route.NormalForms
import ShardedSql.Proofs.Route.NumberedNodes
import ShardedSql.Proofs.Route.Redirected
import ShardedSql.Proofs.Route.Replication
import ShardedSql.Proofs.Route.RoundRobin
import ShardedSql.Proofs.Route.Shadowed
import ShardedSql.Proofs.Route.ShardNumbers
import ShardedSql.Proofs.Route.Targets
import ShardedSql.Proofs.Route.WrittenNodes
import ShardedSql.Proofs.Statement.WrittenHints
