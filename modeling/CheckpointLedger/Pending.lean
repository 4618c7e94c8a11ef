import CheckpointLedger.Error
import CheckpointLedger.Record

/-!
# Checkpoints in progress

A checkpoint in progress has a slot for every subtask that is to acknowledge it:
as many in each task group as the group has subtasks. A report fills its slot
once and for all. Two running figures, how many slots are filled and the latest
time of an acknowledgement, spare those who only want to know these from going
through the slots.

Asking for the result ends the record: it is given once, and from then on no
report is taken.
-/

namespace CheckpointLedger

/-- The slots of one task group, by subtask. -/
abbrev Slots := List (Option Report)

/-- A checkpoint in progress. -/
structure Pending where
  /-- Its id. -/
  id : Nat
  /-- When it was triggered. -/
  trigger : Nat
  /-- Its kind and policy. -/
  properties : Properties
  /-- The slots of each task group. -/
  groups : OrderedMap VertexId Slots
  /-- How many slots are filled. -/
  count : Nat
  /-- The latest time of an acknowledgement, zero while there is none. -/
  latest : Nat
  /-- Whether the result was given. -/
  finalized : Bool

/-- Why a report was not taken. -/
inductive Refusal where
  /-- The result was given already. -/
  | finalized
  /-- There is no such task group. -/
  | unknownGroup
  /-- The group has no such subtask. -/
  | noSuchSubtask
  /-- The subtask reported before. -/
  | duplicate
deriving DecidableEq, Repr

namespace Pending

/-- A checkpoint that was just triggered, with the number of subtasks of each group. -/
def new (id trigger : Nat) (properties : Properties) (groups : OrderedMap VertexId Nat) :
    Pending where
  id := id
  trigger := trigger
  properties := properties
  groups := groups.map (List.replicate · none)
  count := 0
  latest := 0
  finalized := false

/-- How many subtasks are to acknowledge. -/
def total (p : Pending) : Nat := sumOf (p.groups.values.map List.length)

/-- The latest time of an acknowledgement, if there is one. -/
def latestAck? (p : Pending) : Option Nat := if p.count = 0 then none else some p.latest

/-- Why a report would not be taken. -/
def refusal? (p : Pending) (vertex : VertexId) (report : Report) : Option Refusal :=
  if p.finalized then some .finalized
  else
    match p.groups.find? vertex with
    | none => some .unknownGroup
    | some slots =>
      match slots[report.subtask]? with
      | none => some .noSuchSubtask
      | some (some _) => some .duplicate
      | some none => none

/-- Fills the slot of a report. -/
def fill (p : Pending) (vertex : VertexId) (report : Report) : Pending :=
  { p with
    groups := p.groups.modify vertex (·.set report.subtask (some report))
    count := p.count + 1
    latest := max p.latest report.ackTime }

/-- Takes a report, or says why not. -/
def acknowledge (p : Pending) (vertex : VertexId) (report : Report) : Except Refusal Pending :=
  match p.refusal? vertex report with
  | some refusal => .error refusal
  | none => .ok (p.fill vertex report)

/-- The reports in the slots of one group. -/
def groupOf (vertex : VertexId) (slots : Slots) : GroupReports :=
  ⟨vertex, slots.length, slots.filterMap (fun slot => slot)⟩

/-- The reports of one group so far. -/
def group? (p : Pending) (vertex : VertexId) : Option GroupReports :=
  (p.groups.find? vertex).map (groupOf vertex)

/-- The reports of all groups so far, in the order of the groups' ids. -/
def allGroups (p : Pending) : List GroupReports :=
  p.groups.entries.map (fun g => groupOf g.1 g.2)

/-- What the checkpoint has gathered so far. -/
def acknowledged (p : Pending) : Acknowledged := .ofGroups p.allGroups

/-- The record of the end, as far as it does not depend on the kind of end. -/
def gathered (p : Pending) : Gathered where
  id := p.id
  trigger := p.trigger
  properties := p.properties
  total := p.total
  acknowledged := p.acknowledged

/-- Ends the record and gives what it gathered; only the first time. -/
def finalize (p : Pending) : Except Error (Gathered × Pending) :=
  if p.finalized then .error (.alreadyFinalized p.id)
  else .ok (p.gathered, { p with finalized := true })

/-- Ends the record with success. -/
def complete (p : Pending) (pointer : Option String) (metadataSize : Nat) :
    Except Error (Completed × Pending) :=
  p.finalize.map fun (g, p) => ({ g with pointer, metadataSize }, p)

/-- Ends the record without. -/
def fail (p : Pending) (failureTime : Nat) (message : Option String) :
    Except Error (Failed × Pending) :=
  p.finalize.map fun (g, p) => ({ g with failureTime, message }, p)

end Pending

end CheckpointLedger
