import CheckpointLedger.Identifier

/-!
# Notices

What the ledger writes to the log while it works. A notice is what happened, as a
value; its level, its words and its fields follow from that.
-/

namespace CheckpointLedger

/-- How much a notice matters. -/
inductive Level where
  /-- Of interest when looking for a fault. -/
  | debug
  /-- The ordinary course. -/
  | info
  /-- Something is wrong. -/
  | warn
deriving DecidableEq, Repr

namespace Level

/-- The level in the log. -/
def display : Level → String
  | debug => "DEBUG"
  | info => "INFO"
  | warn => "WARN"

end Level

/-- Something the ledger tells the log. -/
inductive Notice where
  /-- A checkpoint was registered. -/
  | pending (id trigger : Nat) (type : String) (total : Nat)
  /-- A checkpoint was not registered, since its id does not exceed the last. -/
  | nonIncreasing (id last : Nat)
  /-- A report came for a record that has ended. -/
  | reportAfterEnd (id subtask : Nat)
  /-- A report came for a task group that takes no part. -/
  | reportForUnknownGroup (id : Nat) (vertex : VertexId)
  /-- A subtask reported again. -/
  | duplicateReport (id subtask : Nat)
  /-- A report came for a checkpoint that is not in progress. -/
  | reportNotInProgress (id : Nat)
  /-- A record was asked for its result again. -/
  | finalizedTwice (id : Nat)
  /-- The end of a checkpoint was reported that is not in progress. -/
  | unknownConclusion (id : Nat)
  /-- A checkpoint ended while none was counted in progress. -/
  | unbalanced
  /-- A checkpoint completed. -/
  | completed (id : Nat) (type : String) (duration checkpointedSize fullSize : Nat)
      (unaligned : Bool)
  /-- A checkpoint failed. -/
  | failed (id : Nat) (type : String) (time acknowledged total : Nat) (message : Option String)
  /-- A checkpoint failed before it was in progress. -/
  | untriggered
  /-- A generation was given up for the next. -/
  | discarded (generation missing : Nat)
  /-- A generation began. -/
  | initializationStarted (generation attempts start : Nat)
  /-- The metrics of an attempt were not awaited. -/
  | metricsIgnored (attempt : AttemptId)
  /-- A restored checkpoint was reported before any generation began. -/
  | restoredTooEarly (id : Nat)
  /-- The checkpoint was reported that a generation starts from. -/
  | restored (id stateSize : Nat)
  /-- A generation is complete. -/
  | initializationCompleted (generation id duration attempts : Nat) (status : String)
deriving DecidableEq

/-- What a field of a notice holds. -/
inductive Detail where
  /-- A number. -/
  | nat (n : Nat)
  /-- A truth value. -/
  | flag (b : Bool)
  /-- A text. -/
  | text (s : String)
deriving DecidableEq, Repr

namespace Notice

/-- How much a notice matters. -/
def level : Notice → Level
  | nonIncreasing .. | finalizedTwice .. | unknownConclusion .. | unbalanced
  | restoredTooEarly .. => .warn
  | completed .. | failed .. | untriggered | restored .. | initializationCompleted .. => .info
  | _ => .debug

/-- A notice in words. -/
def message : Notice → String
  | pending .. => "Checkpoint pending"
  | nonIncreasing .. => "Non-increasing checkpoint id"
  | reportAfterEnd .. => "Ignoring subtask report for finalized checkpoint"
  | reportForUnknownGroup .. => "Ignoring subtask report for unknown task group"
  | duplicateReport .. => "Duplicate subtask report"
  | reportNotInProgress .. => "Ignoring subtask report for checkpoint not in progress"
  | finalizedTwice .. => "Checkpoint finalized twice"
  | unknownConclusion .. => "Terminal stats reported for unknown checkpoint"
  | unbalanced =>
    "Terminal checkpoint reported without an in-progress checkpoint; counts unchanged"
  | completed .. => "Checkpoint completed"
  | failed .. => "Checkpoint failed"
  | untriggered => "Checkpoint failed before it was in progress"
  | discarded .. => "Discarding unfinished restore generation"
  | initializationStarted .. => "Initialization started"
  | metricsIgnored .. => "Ignoring initialization metrics outside the current generation"
  | restoredTooEarly .. => "Restored checkpoint reported before initialization started"
  | restored .. => "Restored checkpoint"
  | initializationCompleted .. => "Initialization completed"

/-- What goes with a notice, by name. -/
def fields : Notice → List (String × Detail)
  | pending id trigger type total =>
    [("checkpoint_id", .nat id), ("trigger_timestamp", .nat trigger),
     ("checkpoint_type", .text type), ("subtasks", .nat total)]
  | nonIncreasing id last => [("checkpoint_id", .nat id), ("last", .nat last)]
  | reportAfterEnd id subtask => [("checkpoint_id", .nat id), ("subtask", .nat subtask)]
  | reportForUnknownGroup id vertex =>
    [("checkpoint_id", .nat id), ("vertex", .text vertex.display)]
  | duplicateReport id subtask => [("checkpoint_id", .nat id), ("subtask", .nat subtask)]
  | reportNotInProgress id => [("checkpoint_id", .nat id)]
  | finalizedTwice id => [("checkpoint_id", .nat id)]
  | unknownConclusion id => [("checkpoint_id", .nat id)]
  | unbalanced => []
  | completed id type duration checkpointedSize fullSize unaligned =>
    [("checkpoint_id", .nat id), ("checkpoint_type", .text type),
     ("duration_ms", .nat duration), ("checkpointed_size", .nat checkpointedSize),
     ("full_size", .nat fullSize), ("unaligned", .flag unaligned)]
  | failed id type time acknowledged total message =>
    [("checkpoint_id", .nat id), ("checkpoint_type", .text type),
     ("failure_timestamp", .nat time), ("acknowledged", .nat acknowledged),
     ("total", .nat total), ("cause", .text (message.getD "unknown"))]
  | untriggered => []
  | discarded generation missing =>
    [("generation", .nat generation), ("missing_attempts", .nat missing)]
  | initializationStarted generation attempts start =>
    [("generation", .nat generation), ("attempts", .nat attempts), ("start_ts", .nat start)]
  | metricsIgnored attempt => [("attempt", .text attempt.display)]
  | restoredTooEarly id => [("checkpoint_id", .nat id)]
  | restored id stateSize => [("checkpoint_id", .nat id), ("state_size", .nat stateSize)]
  | initializationCompleted generation id duration attempts status =>
    [("generation", .nat generation), ("checkpoint_id", .nat id),
     ("duration_ms", .nat duration), ("attempts", .nat attempts), ("status", .text status)]

end Notice

end CheckpointLedger
