import CheckpointLedger.Ledger.State

/-!
# Gauges

Figures of the ledger that can be read at any time. A gauge outlives the ledger it
reads; without a ledger, as without a checkpoint to tell of, it reads a default.
-/

namespace CheckpointLedger

/-- A figure that can be read at any time. -/
inductive Gauge where
  /-- How many checkpoints there are. -/
  | total
  /-- How many are in progress. -/
  | inProgress
  /-- How many completed. -/
  | completed
  /-- How many failed. -/
  | failed
  /-- When the last restore began. -/
  | restoreTime
  /-- The checkpointed size of the latest completed checkpoint. -/
  | checkpointedSize
  /-- The size of its metadata. -/
  | metadataSize
  /-- The size of its whole state. -/
  | fullSize
  /-- The time it took. -/
  | duration
  /-- The bytes it processed while aligning. -/
  | processedData
  /-- The bytes in flight that it persisted. -/
  | persistedData
  /-- Where its data lies. -/
  | externalPath
  /-- Its id. -/
  | completedId
  /-- When its last subtask acknowledged. -/
  | completedTime
deriving DecidableEq, Repr

namespace Gauge

/-- The gauges that count checkpoints. -/
def counting : List Gauge := [total, inProgress, completed, failed]

/-- All gauges, those that count first. -/
def all : List Gauge :=
  counting ++
    [restoreTime, checkpointedSize, metadataSize, fullSize, duration, processedData,
     persistedData, externalPath, completedId, completedTime]

/-- The name a gauge is registered by. -/
def name : Gauge → String
  | total => "totalNumberOfCheckpoints"
  | inProgress => "numberOfInProgressCheckpoints"
  | completed => "numberOfCompletedCheckpoints"
  | failed => "numberOfFailedCheckpoints"
  | restoreTime => "lastCheckpointRestoreTimestamp"
  | checkpointedSize => "lastCheckpointSize"
  | metadataSize => "lastCheckpointMetadataSize"
  | fullSize => "lastCheckpointFullSize"
  | duration => "lastCheckpointDuration"
  | processedData => "lastCheckpointProcessedData"
  | persistedData => "lastCheckpointPersistedData"
  | externalPath => "lastCheckpointExternalPath"
  | completedId => "lastCompletedCheckpointId"
  | completedTime => "lastCheckpointCompletedTimestamp"

/-- A number that may be missing. -/
def long (default : Int) (n : Option Nat) : Value := .long ((n.map toLong).getD default)

/-- A figure of the latest completed checkpoint. -/
def ofLatest (l : Option Ledger) (figure : Completed → Nat) : Value :=
  long (-1) ((l.bind (·.latestCompleted)).map figure)

/-- What a gauge reads. -/
def read (l : Option Ledger) : Gauge → Value
  | total => long 0 (l.map (·.counts.total))
  | inProgress => long 0 (l.map (·.counts.inProgress))
  | completed => long 0 (l.map (·.counts.completed))
  | failed => long 0 (l.map (·.counts.failed))
  | restoreTime => long (-1) ((l.bind (·.latestRestored)).map (·.time))
  | checkpointedSize => ofLatest l (·.acknowledged.checkpointedSize)
  | metadataSize => ofLatest l (·.metadataSize)
  | fullSize => ofLatest l (·.acknowledged.stateSize)
  | duration => ofLatest l (·.duration)
  | processedData => ofLatest l (·.acknowledged.processedData)
  | persistedData => ofLatest l (·.acknowledged.persistedData)
  | externalPath => .text (((l.bind (·.latestCompleted)).bind (·.pointer)).getD "n/a")
  | completedId => ofLatest l (·.id)
  | completedTime => ofLatest l (·.latestAck)

end Gauge

end CheckpointLedger
