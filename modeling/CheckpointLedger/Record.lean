import CheckpointLedger.Acknowledged
import CheckpointLedger.Properties

/-!
# Concluded and restored checkpoints

A checkpoint ends completed or failed. Either way what it had gathered by then is
fixed, and the two kinds of end differ in what is added: where the data lies, or
what went wrong. The common part is one structure, `Gathered`, so that what holds
of the one end holds of the other.
-/

namespace CheckpointLedger

/-- What is known of a checkpoint at its end, whichever end it is. -/
structure Gathered where
  /-- The id of the checkpoint. -/
  id : Nat
  /-- When it was triggered. -/
  trigger : Nat
  /-- Its kind and policy. -/
  properties : Properties
  /-- How many subtasks were to acknowledge. -/
  total : Nat
  /-- What they reported. -/
  acknowledged : Acknowledged
deriving DecidableEq, Repr

/-- A checkpoint that succeeded. -/
structure Completed extends Gathered where
  /-- Where its data lies, if it was put somewhere. -/
  pointer : Option String
  /-- Bytes of its metadata. -/
  metadataSize : Nat
deriving DecidableEq, Repr

/-- A checkpoint that did not. -/
structure Failed extends Gathered where
  /-- When it was given up. -/
  failureTime : Nat
  /-- Why, if that is known. -/
  message : Option String
deriving DecidableEq, Repr

namespace Completed

/-- When the last subtask acknowledged; when the checkpoint was triggered, if none did. -/
def latestAck (c : Completed) : Nat :=
  match c.acknowledged.latest with
  | some r => r.ackTime
  | none => c.trigger

/-- The time from the trigger to the last acknowledgement. -/
def duration (c : Completed) : Nat := c.latestAck - c.trigger

end Completed

namespace Failed

/-- The time from the trigger to the failure. -/
def duration (f : Failed) : Nat := f.failureTime - f.trigger

end Failed

/-- How a checkpoint ended. -/
inductive Conclusion where
  /-- It succeeded. -/
  | completed (c : Completed)
  /-- It did not. -/
  | failed (f : Failed)
deriving DecidableEq, Repr

namespace Conclusion

/-- What either end knows. -/
def gathered : Conclusion → Gathered
  | completed c => c.toGathered
  | failed f => f.toGathered

/-- The id of the checkpoint. -/
def id (c : Conclusion) : Nat := c.gathered.id

/-- Where the checkpoint stands. -/
def status : Conclusion → Status
  | completed _ => .completed
  | failed _ => .failed

end Conclusion

/-- The checkpoint that a job was restored from. -/
structure Restored where
  /-- Its id. -/
  id : Nat
  /-- Its kind and policy. -/
  properties : Properties
  /-- When the initialization began that restored it. -/
  time : Nat
  /-- Where its data lies, if it was put somewhere. -/
  path : Option String
  /-- Bytes of its state. -/
  stateSize : Nat
deriving DecidableEq, Repr

instance : Record Restored where
  fields :=
    [⟨"checkpoint_id", .forbidden⟩, ⟨"properties", .forbidden⟩,
     ⟨"restore_timestamp", .forbidden⟩, ⟨"external_path", .nothing⟩,
     ⟨"state_size", .forbidden⟩]
  toValues r :=
    [encode r.id, encode r.properties, encode r.time, encode r.path, encode r.stateSize]
  ofValues
    | [id, properties, time, path, stateSize] => do
      return {
        id := ← Field.required id
        properties := ← Field.required properties
        time := ← Field.required time
        path := ← Field.optional path
        stateSize := ← Field.required stateSize }
    | _ => none

end CheckpointLedger
