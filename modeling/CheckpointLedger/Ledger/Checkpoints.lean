import CheckpointLedger.Ledger.Step

/-!
# Following checkpoints

The operations around a checkpoint: it is registered, its subtasks report, its
record is asked for the result, and the result is reported back. Registration and
the report of a result change what the ledger shows; the reports of subtasks and
the asking change only the record, which is shared with every snapshot.

A result is a value. Reporting it needs no record, only that a checkpoint of that
id is in progress, and takes it out of those; so no result is counted twice.
-/

namespace CheckpointLedger

namespace Ledger

/-- Adds a checkpoint whose id was found in order. -/
def enter (l : Ledger) (record : Pending) : Ledger :=
  let handle : Handle := ⟨l.records.length⟩
  { l with
    records := l.records ++ [record]
    counts := l.counts.addInProgress
    history := l.history.trigger record.id handle
    inProgress := l.inProgress.insert record.id handle
    lastId := some record.id }.touch

/-- A checkpoint was triggered. Its id has to exceed all earlier ones. -/
def register (l : Ledger) (id trigger : Nat) (properties : Properties)
    (groups : OrderedMap VertexId Nat) : Step (Except Error Handle) :=
  match l.lastId.filter (id ≤ ·) with
  | some last => ⟨.error (.nonIncreasing id last), l, [.notice (.nonIncreasing id last)]⟩
  | none =>
    let record := Pending.new id trigger properties groups
    ⟨.ok ⟨l.records.length⟩, l.enter record,
      [.notice (.pending id trigger properties.kind.typeName record.total)]⟩

/-- What is written to the log when a report is not taken. -/
def refusalNotice (id : Nat) (vertex : VertexId) (report : Report) : Refusal → List Effect
  | .finalized => [.notice (.reportAfterEnd id report.subtask)]
  | .unknownGroup => [.notice (.reportForUnknownGroup id vertex)]
  | .noSuchSubtask => []
  | .duplicate => [.notice (.duplicateReport id report.subtask)]

/-- A subtask reports to the holder of a handle. Whether the report was taken is the answer. -/
def acknowledge (l : Ledger) (handle : Handle) (vertex : VertexId) (report : Report) :
    Step Bool :=
  match l.record? handle with
  | none => ⟨false, l, []⟩
  | some record =>
    match record.acknowledge vertex report with
    | .ok record => ⟨true, l.keep handle record, []⟩
    | .error refusal => ⟨false, l, refusalNotice record.id vertex report refusal⟩

/-- A subtask reports to the ledger, for a checkpoint in progress. -/
def route (l : Ledger) (id : Nat) (vertex : VertexId) (report : Report) : Step Bool :=
  match l.inProgress? id with
  | none => ⟨false, l, [.notice (.reportNotInProgress id)]⟩
  | some handle => l.acknowledge handle vertex report

/-- A record is asked for its result; there is none for a handle that was not given out. -/
def conclude {α : Type} (l : Ledger) (handle : Handle)
    (ending : Pending → Except Error (α × Pending)) : Step (Option (Except Error α)) :=
  match l.record? handle with
  | none => ⟨none, l, []⟩
  | some record =>
    match ending record with
    | .ok (result, record) => ⟨some (.ok result), l.keep handle record, []⟩
    | .error e => ⟨some (.error e), l, [.notice (.finalizedTwice record.id)]⟩

/-- A record is asked for the result of a checkpoint that succeeded. -/
def complete (l : Ledger) (handle : Handle) (pointer : Option String) (metadataSize : Nat) :
    Step (Option (Except Error Completed)) :=
  l.conclude handle (·.complete pointer metadataSize)

/-- A record is asked for the result of a checkpoint that did not. -/
def fail (l : Ledger) (handle : Handle) (failureTime : Nat) (message : Option String) :
    Step (Option (Except Error Failed)) :=
  l.conclude handle (·.fail failureTime message)

/-- What a span and an event tell of a completed checkpoint. -/
def attributesOf (c : Completed) : Attributes :=
  .ofList
    [("checkpointId", .ofNat c.id),
     ("checkpointType", .text c.properties.kind.typeName),
     ("isUnaligned", .text (if c.acknowledged.unaligned then "true" else "false")),
     ("checkpointStatus", .text Status.completed.display),
     ("fullSize", .ofNat c.acknowledged.stateSize),
     ("checkpointedSize", .ofNat c.acknowledged.checkpointedSize),
     ("metadataSize", .ofNat c.metadataSize),
     ("processedData", .ofNat c.acknowledged.processedData),
     ("persistedData", .ofNat c.acknowledged.persistedData)]

/-- The span over a completed checkpoint. -/
def spanOf (c : Completed) : Span :=
  ((Span.new scope "Checkpoint").withInterval c.trigger c.latestAck).withAttributes
    (attributesOf c)

/-- The event at the end of a completed checkpoint. -/
def eventOf (c : Completed) : Event :=
  (Event.new scope "CheckpointEvent" c.latestAck).withAttributes (attributesOf c)

/-- Warns when a checkpoint ends while none is counted in progress. -/
def balanceNotice (l : Ledger) : List Effect :=
  if l.counts.inProgress = 0 then [.notice .unbalanced] else []

/-- The completed checkpoint with the given record goes into the books. -/
def bookCompleted (l : Ledger) (c : Completed) : Ledger :=
  { l with
    inProgress := l.inProgress.erase c.id
    counts := l.counts.addCompleted
    summary := Summary.add l.summary c
    history := l.history.conclude (.completed c)
    latestCompleted := newest (·.id) l.latestCompleted c }.touch

/-- A checkpoint completed. -/
def reportCompleted (l : Ledger) (c : Completed) : Step (Except Error Unit) :=
  match l.inProgress? c.id with
  | none => ⟨.error (.notInProgress c.id), l, [.notice (.unknownConclusion c.id)]⟩
  | some _ =>
    let after := l.bookCompleted c
    ⟨.ok (), after,
      l.balanceNotice ++
        [.notice (.completed c.id c.properties.kind.typeName c.duration
          c.acknowledged.checkpointedSize c.acknowledged.stateSize c.acknowledged.unaligned),
         .span (spanOf c) after.seen,
         .event (eventOf c) after.seen,
         .completed after.seen]⟩

/-- The failed checkpoint with the given record goes into the books. -/
def bookFailed (l : Ledger) (f : Failed) : Ledger :=
  { l with
    inProgress := l.inProgress.erase f.id
    counts := l.counts.addFailed
    history := l.history.conclude (.failed f) }.touch

/-- A checkpoint failed. -/
def reportFailed (l : Ledger) (f : Failed) : Step (Except Error Unit) :=
  match l.inProgress? f.id with
  | none => ⟨.error (.notInProgress f.id), l, [.notice (.unknownConclusion f.id)]⟩
  | some _ =>
    let after := l.bookFailed f
    ⟨.ok (), after,
      l.balanceNotice ++
        [.notice (.failed f.id f.properties.kind.typeName f.failureTime f.acknowledged.count
          f.total f.message),
         .failed after.seen]⟩

/-- A checkpoint failed before it was in progress. -/
def reportUntriggered (l : Ledger) : Step Unit :=
  let after := { l with counts := l.counts.addUntriggered }.touch
  ⟨(), after, [.notice .untriggered, .failed after.seen]⟩

end Ledger

end CheckpointLedger
