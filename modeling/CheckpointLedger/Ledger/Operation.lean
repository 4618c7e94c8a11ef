import CheckpointLedger.Ledger.Checkpoints
import CheckpointLedger.Ledger.Restores

/-!
# Operations as values

Everything that can be done to a ledger, as one type, so that a history of what
was done is a list. `Ledger.perform` does one operation and `Ledger.run` a list
of them, keeping what each brought about.
-/

namespace CheckpointLedger

/-- Something that can be done to a ledger. -/
inductive Operation where
  /-- A checkpoint was triggered. -/
  | register (id trigger : Nat) (properties : Properties) (groups : OrderedMap VertexId Nat)
  /-- A subtask reports to the holder of a handle. -/
  | acknowledge (handle : Handle) (vertex : VertexId) (report : Report)
  /-- A subtask reports to the ledger. -/
  | route (id : Nat) (vertex : VertexId) (report : Report)
  /-- A record is asked for the result of a checkpoint that succeeded. -/
  | complete (handle : Handle) (pointer : Option String) (metadataSize : Nat)
  /-- A record is asked for the result of a checkpoint that did not. -/
  | fail (handle : Handle) (failureTime : Nat) (message : Option String)
  /-- A checkpoint completed. -/
  | reportCompleted (c : Completed)
  /-- A checkpoint failed. -/
  | reportFailed (f : Failed)
  /-- A checkpoint failed before it was in progress. -/
  | reportUntriggered
  /-- The next generation of attempts begins. -/
  | beginInitialization (attempts : List AttemptId) (start : Nat)
  /-- An attempt reports. -/
  | reportMetrics (attempt : AttemptId) (metrics : AttemptMetrics)
  /-- The checkpoint is named that the job is restored from. -/
  | reportRestored (id : Nat) (properties : Properties) (path : Option String)
      (stateSize : Nat)
  /-- Somebody wants to see the ledger. -/
  | snapshot

/-- What an operation answers. -/
inductive Answer where
  /-- It was done. -/
  | done
  /-- Whether a report was taken. -/
  | taken (b : Bool)
  /-- The handle of a new checkpoint. -/
  | registered (handle : Handle)
  /-- How a checkpoint ended. -/
  | concluded (c : Conclusion)
  /-- The ledger at this moment. -/
  | snapshot (s : Snapshot)
  /-- It was not done. -/
  | refused (e : Error)
  /-- The handle stands for no record of this ledger. -/
  | noSuchRecord

namespace Answer

/-- The answer of an operation that either is done or is in error. -/
def ofExcept {α : Type} (f : α → Answer) : Except Error α → Answer
  | .ok a => f a
  | .error e => refused e

end Answer

namespace Ledger

/-- Does one operation. -/
def perform (l : Ledger) : Operation → Step Answer
  | .register id trigger properties groups =>
    (l.register id trigger properties groups).map (.ofExcept .registered)
  | .acknowledge handle vertex report => (l.acknowledge handle vertex report).map .taken
  | .route id vertex report => (l.route id vertex report).map .taken
  | .complete handle pointer metadataSize =>
    (l.complete handle pointer metadataSize).map fun
      | none => .noSuchRecord
      | some e => .ofExcept (fun c => .concluded (.completed c)) e
  | .fail handle failureTime message =>
    (l.fail handle failureTime message).map fun
      | none => .noSuchRecord
      | some e => .ofExcept (fun f => .concluded (.failed f)) e
  | .reportCompleted c => (l.reportCompleted c).map (.ofExcept fun _ => .done)
  | .reportFailed f => (l.reportFailed f).map (.ofExcept fun _ => .done)
  | .reportUntriggered => l.reportUntriggered.map fun _ => .done
  | .beginInitialization attempts start =>
    (l.beginInitialization attempts start).map fun _ => .done
  | .reportMetrics attempt metrics => (l.reportMetrics attempt metrics).map .taken
  | .reportRestored id properties path stateSize =>
    (l.reportRestored id properties path stateSize).map (.ofExcept fun _ => .done)
  | .snapshot =>
    let (s, after) := l.snapshot
    ⟨.snapshot s, after, []⟩

/-- Does one operation after the other: what each brought about. -/
def run (l : Ledger) : List Operation → List (Step Answer)
  | [] => []
  | o :: rest =>
    let step := l.perform o
    step :: step.ledger.run rest

/-- The ledger that a list of operations leaves. -/
def after (l : Ledger) (operations : List Operation) : Ledger :=
  operations.foldl (fun l o => (l.perform o).ledger) l

end Ledger

end CheckpointLedger
