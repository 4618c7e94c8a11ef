import CheckpointLedger.Report

/-!
# What a checkpoint has gathered

The reports of all task groups of a checkpoint and what they add up to. Totals go
through the groups one by one: a group is summed up first, then the groups are.

Which acknowledgement was the last is decided differently on the two levels, and
on purpose so, since both follow the order of the lists: within a group a later
report of the same time takes over (`Report.later`), while among groups it does
not (`latestOf`). So of all reports of the latest time it is the one with the
greatest index in the smallest group.
-/

namespace CheckpointLedger

/-- The reports of a checkpoint, by group, with their totals. -/
structure Acknowledged where
  /-- The groups. -/
  groups : List GroupReports
  /-- How many subtasks acknowledged. -/
  count : Nat
  /-- The sum of the checkpointed sizes. -/
  checkpointedSize : Nat
  /-- The sum of the state sizes. -/
  stateSize : Nat
  /-- The sum of the bytes processed. -/
  processedData : Nat
  /-- The sum of the bytes persisted. -/
  persistedData : Nat
  /-- Whether the checkpoint was unaligned anywhere. -/
  unaligned : Bool
  /-- The last acknowledgement. -/
  latest : Option Report
deriving DecidableEq, Repr

namespace Acknowledged

/-- The latest report so far and that of one more group: the new one has to be later. -/
def latestOf (current new : Option Report) : Option Report :=
  match current, new with
  | some c, some n => if c.ackTime < n.ackTime then some n else some c
  | none, n => n
  | c, none => c

/-- The totals of a list of groups. -/
def ofGroups (groups : List GroupReports) : Acknowledged where
  groups := groups
  count := sumOf (groups.map (·.acknowledged))
  checkpointedSize := sumCapped (groups.map (·.checkpointedSize))
  stateSize := sumCapped (groups.map (·.stateSize))
  processedData := sumCapped (groups.map (·.processedData))
  persistedData := sumCapped (groups.map (·.persistedData))
  unaligned := groups.any (·.unaligned)
  latest := (groups.map (·.latest?)).foldl latestOf none

end Acknowledged

end CheckpointLedger
