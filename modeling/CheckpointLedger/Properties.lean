import CheckpointLedger.Json.Codec

/-!
# What kind of checkpoint

A checkpoint is either taken periodically or asked for as a savepoint, and it has
a policy that says when its data outlives the job. The statistics only ever look
at the first of these; the policy is carried along for whoever asks.
-/

namespace CheckpointLedger

/-- The format a savepoint is written in. -/
inductive SavepointFormat where
  /-- Independent of the state backend. -/
  | canonical
  /-- The state backend's own. -/
  | native
deriving DecidableEq, Repr

instance : Named SavepointFormat where
  all := [.canonical, .native]
  name
    | .canonical => "Canonical"
    | .native => "Native"

/-- The kind of a checkpoint. -/
inductive Kind where
  /-- Taken periodically. -/
  | checkpoint
  /-- Taken on request. -/
  | savepoint (format : SavepointFormat)
deriving DecidableEq, Repr

namespace Kind

instance : Codec Kind where
  encode
    | .checkpoint => .text "Checkpoint"
    | .savepoint format => .ofMembers [("Savepoint", encode format)]
  decode v :=
    match v.case? with
    | some ("Checkpoint", none) => some .checkpoint
    | some ("Checkpoint", some .null) => some .checkpoint
    | some ("Savepoint", some format) => (decode format).map .savepoint
    | _ => none

/-- Whether this is a savepoint. -/
def isSavepoint : Kind → Bool
  | .checkpoint => false
  | .savepoint _ => true

/-- The name of the kind, without the format. -/
def typeName : Kind → String
  | .checkpoint => "Checkpoint"
  | .savepoint _ => "Savepoint"

end Kind

/-- When the data of a checkpoint outlives its job. -/
inductive Retention where
  /-- Never. -/
  | never
  /-- When the job fails. -/
  | onFailure
  /-- When the job fails or is cancelled. -/
  | onCancellation
  /-- However the job ends. -/
  | always
deriving DecidableEq, Repr

instance : Named Retention where
  all := [.never, .onFailure, .onCancellation, .always]
  name
    | .never => "NeverRetainAfterTermination"
    | .onFailure => "RetainOnFailure"
    | .onCancellation => "RetainOnCancellation"
    | .always => "RetainAlways"

/-- The kind and the policy of one checkpoint. -/
structure Properties where
  /-- Periodic or on request. -/
  kind : Kind
  /-- When its data outlives the job. -/
  retention : Retention
deriving DecidableEq, Repr

namespace Properties

/-- Those of a periodic checkpoint. -/
def checkpoint (retention : Retention) : Properties := ⟨.checkpoint, retention⟩

/-- Those of a savepoint, whose data is always kept. -/
def savepoint (format : SavepointFormat) : Properties := ⟨.savepoint format, .always⟩

instance : Record Properties where
  fields := [⟨"kind", .forbidden⟩, ⟨"retention", .forbidden⟩]
  toValues p := [encode p.kind, encode p.retention]
  ofValues
    | [kind, retention] => do
      return ⟨← Field.required kind, ← Field.required retention⟩
    | _ => none

end Properties

/-- Where a checkpoint stands. -/
inductive Status where
  /-- Triggered and not yet concluded. -/
  | inProgress
  /-- Concluded with success. -/
  | completed
  /-- Concluded without. -/
  | failed
deriving DecidableEq, Repr

namespace Status

instance : Named Status where
  all := [.inProgress, .completed, .failed]
  name
    | .inProgress => "InProgress"
    | .completed => "Completed"
    | .failed => "Failed"

/-- The status as shown to people. -/
def display : Status → String
  | .inProgress => "IN_PROGRESS"
  | .completed => "COMPLETED"
  | .failed => "FAILED"

end Status

end CheckpointLedger
