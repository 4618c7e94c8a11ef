import CheckpointLedger.Json.Codec

/-!
# How many checkpoints

One counter for each status, and two more: all checkpoints together, and restores,
which are counted for themselves.

A checkpoint that ends leaves the ones in progress. If there are none the report
is in error, and nothing is counted; the ledger never lets it come to that.
-/

namespace CheckpointLedger

/-- How many checkpoints there are of each status. -/
structure Counts where
  /-- Restores. -/
  restored : Nat
  /-- Checkpoints of any status. -/
  total : Nat
  /-- Checkpoints in progress. -/
  inProgress : Nat
  /-- Completed checkpoints. -/
  completed : Nat
  /-- Failed checkpoints. -/
  failed : Nat
deriving DecidableEq, Repr

namespace Counts

/-- Before the first checkpoint. -/
def zero : Counts := ⟨0, 0, 0, 0, 0⟩

instance : Record Counts where
  fields :=
    [⟨"restored", .forbidden⟩, ⟨"total", .forbidden⟩, ⟨"in_progress", .forbidden⟩,
     ⟨"completed", .forbidden⟩, ⟨"failed", .forbidden⟩]
  toValues c :=
    [encode c.restored, encode c.total, encode c.inProgress, encode c.completed,
     encode c.failed]
  ofValues
    | [restored, total, inProgress, completed, failed] => do
      return {
        restored := ← Field.required restored
        total := ← Field.required total
        inProgress := ← Field.required inProgress
        completed := ← Field.required completed
        failed := ← Field.required failed }
    | _ => none

/-- One more restore. -/
def addRestored (c : Counts) : Counts := { c with restored := c.restored + 1 }

/-- One more checkpoint, in progress. -/
def addInProgress (c : Counts) : Counts :=
  { c with total := c.total + 1, inProgress := c.inProgress + 1 }

/-- One more checkpoint, which failed before it was in progress. -/
def addUntriggered (c : Counts) : Counts :=
  { c with total := c.total + 1, failed := c.failed + 1 }

/-- One checkpoint less in progress, if there is one. -/
def leaveInProgress? (c : Counts) : Option Counts :=
  if c.inProgress = 0 then none else some { c with inProgress := c.inProgress - 1 }

/-- One checkpoint in progress completes. -/
def addCompleted (c : Counts) : Counts :=
  match c.leaveInProgress? with
  | some c => { c with completed := c.completed + 1 }
  | none => c

/-- One checkpoint in progress fails. -/
def addFailed (c : Counts) : Counts :=
  match c.leaveInProgress? with
  | some c => { c with failed := c.failed + 1 }
  | none => c

end Counts

end CheckpointLedger
