import CheckpointLedger.Config
import CheckpointLedger.Counts
import CheckpointLedger.History
import CheckpointLedger.Initialization
import CheckpointLedger.Pending
import CheckpointLedger.Summary

/-!
# The ledger

Everything that is known of the checkpoints and restores of one job.

The records of checkpoints in progress are kept in one place, in the order of
their registration, and never leave it; a `Handle` is a place in that list. So
whoever holds a handle, the history, an old snapshot or the caller, sees the same
record, whatever has happened to the checkpoint since.

A snapshot is everything else at one moment. It is numbered when it is made, and
given out again for as long as nothing that it shows has changed; the number,
its edition, tells whether two snapshots are the same one.
-/

namespace CheckpointLedger

/-- Everything but the records, at one moment. -/
structure Snapshot where
  /-- How many snapshots the ledger had made before. -/
  edition : Nat
  /-- How many checkpoints there were of each status. -/
  counts : Counts
  /-- The figures over all completed checkpoints. -/
  summary : SummaryView
  /-- The checkpoints triggered last. -/
  history : History
  /-- The checkpoint the job was restored from last. -/
  latestRestored : Option Restored
  /-- The last generation that was complete. -/
  latestInitialization : Option Initialization

/-- The checkpoints and restores of one job. -/
structure Ledger where
  /-- The records of all checkpoints that were ever in progress, by registration. -/
  records : List Pending
  /-- How many checkpoints there are of each status. -/
  counts : Counts
  /-- The figures over all completed checkpoints. -/
  summary : Summary
  /-- The checkpoints triggered last. -/
  history : History
  /-- The checkpoints in progress, by id. -/
  inProgress : OrderedMap Nat Handle
  /-- The id registered last. -/
  lastId : Option Nat
  /-- The completed checkpoint with the greatest id, savepoints included. -/
  latestCompleted : Option Completed
  /-- The generation of attempts that is at work, or was last. -/
  generation : Option Generation
  /-- How many generations there were. -/
  generations : Nat
  /-- The checkpoint the job was restored from last. -/
  latestRestored : Option Restored
  /-- The last generation that was complete. -/
  latestInitialization : Option Initialization
  /-- The last snapshot, while nothing has changed since. -/
  current : Option Snapshot
  /-- How many snapshots were made. -/
  editions : Nat

namespace Ledger

/-- The ledger of a job that is about to start. -/
def new (config : Config) : Ledger where
  records := []
  counts := .zero
  summary := .zero
  history := .new config.historySize
  inProgress := .empty
  lastId := none
  latestCompleted := none
  generation := none
  generations := 0
  latestRestored := none
  latestInitialization := none
  current := none
  editions := 0

/-- The record that a handle stands for. -/
def record? (l : Ledger) (handle : Handle) : Option Pending := l.records[handle.index]?

/-- The handle of the checkpoint in progress with an id. -/
def inProgress? (l : Ledger) (id : Nat) : Option Handle := l.inProgress.find? id

/-- Keeps a record in the place of an earlier state of it. -/
def keep (l : Ledger) (handle : Handle) (record : Pending) : Ledger :=
  { l with records := l.records.set handle.index record }

/-- What a snapshot made now would show. -/
def compile (l : Ledger) (edition : Nat) : Snapshot where
  edition := edition
  counts := l.counts
  summary := l.summary.view
  history := l.history
  latestRestored := l.latestRestored
  latestInitialization := l.latestInitialization

/-- The snapshot of this moment, and the ledger that knows of it. -/
def snapshot (l : Ledger) : Snapshot × Ledger :=
  match l.current with
  | some s => (s, l)
  | none =>
    let s := l.compile l.editions
    (s, { l with current := some s, editions := l.editions + 1 })

end Ledger

end CheckpointLedger
