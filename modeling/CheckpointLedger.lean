import CheckpointLedger.Ledger.Operation
import CheckpointLedger.Proofs.Aggregates
import CheckpointLedger.Proofs.Announcements
import CheckpointLedger.Proofs.Arrivals
import CheckpointLedger.Proofs.Attributes
import CheckpointLedger.Proofs.Balance
import CheckpointLedger.Proofs.Completions
import CheckpointLedger.Proofs.Confluence
import CheckpointLedger.Proofs.Consistency
import CheckpointLedger.Proofs.Consolidation
import CheckpointLedger.Proofs.Decoding
import CheckpointLedger.Proofs.DocumentOrder
import CheckpointLedger.Proofs.Durations
import CheckpointLedger.Proofs.Fields
import CheckpointLedger.Proofs.Figures
import CheckpointLedger.Proofs.Filled
import CheckpointLedger.Proofs.Gauges
import CheckpointLedger.Proofs.Generations
import CheckpointLedger.Proofs.IdentifierOrder
import CheckpointLedger.Proofs.LateRestores
import CheckpointLedger.Proofs.Latest
import CheckpointLedger.Proofs.Lookup
import CheckpointLedger.Proofs.Progress
import CheckpointLedger.Proofs.Results
import CheckpointLedger.Proofs.Retention
import CheckpointLedger.Proofs.Room
import CheckpointLedger.Proofs.Routing
import CheckpointLedger.Proofs.Separation
import CheckpointLedger.Proofs.Snapshots
import CheckpointLedger.Proofs.Totals
import CheckpointLedger.View
