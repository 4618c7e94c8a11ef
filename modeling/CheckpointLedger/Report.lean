import CheckpointLedger.Identifier

/-!
# Subtask reports

What a subtask tells when it acknowledges a checkpoint, and the reports of one
task group at one moment.

The reports of a group are listed by subtask, so one is looked up by halving the
list. A group that was frozen from a checkpoint in progress is in that order; one
that was read from a document has whatever order the document had.
-/

namespace CheckpointLedger

/-- What one subtask reports when it acknowledges a checkpoint. -/
structure Report where
  /-- The index of the subtask in its group. -/
  subtask : Nat
  /-- When it acknowledged. -/
  ackTime : Nat
  /-- Bytes written for this checkpoint alone. -/
  checkpointedSize : Nat
  /-- Bytes of the subtask's whole state. -/
  stateSize : Nat
  /-- Milliseconds of the synchronous part. -/
  syncDuration : Nat
  /-- Milliseconds of the asynchronous part. -/
  asyncDuration : Nat
  /-- Bytes processed while aligning. -/
  processedData : Nat
  /-- Bytes of data in flight that were persisted. -/
  persistedData : Nat
  /-- Milliseconds spent aligning. -/
  alignmentDuration : Nat
  /-- Milliseconds between trigger and start. -/
  startDelay : Nat
  /-- Whether the checkpoint was unaligned here. -/
  unaligned : Bool
  /-- Whether the subtask took a snapshot itself, and does not report for a finished task. -/
  tookSnapshot : Bool
deriving DecidableEq, Repr

namespace Report

/-- A report in which all sizes and durations are zero. -/
def new (subtask ackTime : Nat) : Report where
  subtask := subtask
  ackTime := ackTime
  checkpointedSize := 0
  stateSize := 0
  syncDuration := 0
  asyncDuration := 0
  processedData := 0
  persistedData := 0
  alignmentDuration := 0
  startDelay := 0
  unaligned := false
  tookSnapshot := true

/-- Sets the checkpointed size and the state size. -/
def withSizes (r : Report) (checkpointed state : Nat) : Report :=
  { r with checkpointedSize := checkpointed, stateSize := state }

/-- Sets the bytes processed and persisted. -/
def withData (r : Report) (processed persisted : Nat) : Report :=
  { r with processedData := processed, persistedData := persisted }

/-- Sets the durations of the synchronous and the asynchronous part. -/
def withDurations (r : Report) (sync async : Nat) : Report :=
  { r with syncDuration := sync, asyncDuration := async }

/-- Sets the duration of the alignment and the delay of the start. -/
def withAlignment (r : Report) (duration delay : Nat) : Report :=
  { r with alignmentDuration := duration, startDelay := delay }

/-- Sets whether the checkpoint was unaligned. -/
def withUnaligned (r : Report) (unaligned : Bool) : Report :=
  { r with unaligned := unaligned }

/-- Sets whether the subtask took a snapshot itself. -/
def withTookSnapshot (r : Report) (tookSnapshot : Bool) : Report :=
  { r with tookSnapshot := tookSnapshot }

/-- The time from the trigger to the acknowledgement, zero if that came first. -/
def duration (r : Report) (trigger : Nat) : Nat := r.ackTime - trigger

instance : Record Report where
  fields :=
    [⟨"subtask_index", .forbidden⟩, ⟨"ack_timestamp", .forbidden⟩,
     ⟨"checkpointed_size", .forbidden⟩, ⟨"state_size", .forbidden⟩,
     ⟨"sync_duration_ms", .forbidden⟩, ⟨"async_duration_ms", .forbidden⟩,
     ⟨"processed_data", .forbidden⟩, ⟨"persisted_data", .forbidden⟩,
     ⟨"alignment_duration_ms", .forbidden⟩, ⟨"checkpoint_start_delay_ms", .forbidden⟩,
     ⟨"unaligned_checkpoint", .forbidden⟩, ⟨"completed", .forbidden⟩]
  toValues r :=
    [encode r.subtask, encode r.ackTime, encode r.checkpointedSize, encode r.stateSize,
     encode r.syncDuration, encode r.asyncDuration, encode r.processedData,
     encode r.persistedData, encode r.alignmentDuration, encode r.startDelay,
     encode r.unaligned, encode r.tookSnapshot]
  ofValues
    | [subtask, ackTime, checkpointed, state, sync, async, processed, persisted, alignment,
       delay, unaligned, took] => do
      return {
        subtask := ← Field.required subtask
        ackTime := ← Field.required ackTime
        checkpointedSize := ← Field.required checkpointed
        stateSize := ← Field.required state
        syncDuration := ← Field.required sync
        asyncDuration := ← Field.required async
        processedData := ← Field.required processed
        persistedData := ← Field.required persisted
        alignmentDuration := ← Field.required alignment
        startDelay := ← Field.required delay
        unaligned := ← Field.required unaligned
        tookSnapshot := ← Field.required took }
    | _ => none

/--
The report of a subtask in a list that is ordered by subtask. While more than one
report is left, the one in the middle decides which half to keep.
-/
def search (subtask : Nat) (reports : List Report) : Option Report :=
  if h : reports.length ≤ 1 then
    match reports with
    | r :: _ => if r.subtask = subtask then some r else none
    | [] => none
  else
    have middle : reports.length / 2 < reports.length := by omega
    if reports[reports.length / 2].subtask > subtask then
      search subtask (reports.take (reports.length - reports.length / 2))
    else
      search subtask (reports.drop (reports.length / 2))
termination_by reports.length
decreasing_by
  · simp only [List.length_take]; omega
  · simp only [List.length_drop]; omega

/-- Of two reports the one that was acknowledged later; of two at once, the second. -/
def later (a b : Report) : Report := if a.ackTime ≤ b.ackTime then b else a

/-- The report that was acknowledged last; among several, the last of the list. -/
def latest? : List Report → Option Report
  | [] => none
  | r :: rest => some (rest.foldl later r)

end Report

/-- The reports of one task group at one moment. -/
structure GroupReports where
  /-- The group. -/
  vertex : VertexId
  /-- How many subtasks it has. -/
  parallelism : Nat
  /-- What came in, by subtask. -/
  reports : List Report
deriving DecidableEq, Repr

namespace GroupReports

instance : Record GroupReports where
  fields :=
    [⟨"job_vertex_id", .forbidden⟩, ⟨"parallelism", .forbidden⟩, ⟨"subtasks", .forbidden⟩]
  toValues g := [encode g.vertex, encode g.parallelism, encode g.reports]
  ofValues
    | [vertex, parallelism, reports] => do
      return ⟨← Field.required vertex, ← Field.required parallelism, ← Field.required reports⟩
    | _ => none

/-- How many subtasks acknowledged. -/
def acknowledged (g : GroupReports) : Nat := g.reports.length

/-- The report of one subtask, if it acknowledged. -/
def report? (g : GroupReports) (subtask : Nat) : Option Report := Report.search subtask g.reports

/-- The report that was acknowledged last. -/
def latest? (g : GroupReports) : Option Report := Report.latest? g.reports

/-- The sum of the checkpointed sizes. -/
def checkpointedSize (g : GroupReports) : Nat := sumCapped (g.reports.map (·.checkpointedSize))

/-- The sum of the state sizes. -/
def stateSize (g : GroupReports) : Nat := sumCapped (g.reports.map (·.stateSize))

/-- The sum of the bytes processed. -/
def processedData (g : GroupReports) : Nat := sumCapped (g.reports.map (·.processedData))

/-- The sum of the bytes persisted. -/
def persistedData (g : GroupReports) : Nat := sumCapped (g.reports.map (·.persistedData))

/-- Whether the checkpoint was unaligned in some subtask. -/
def unaligned (g : GroupReports) : Bool := g.reports.any (·.unaligned)

end GroupReports

end CheckpointLedger
