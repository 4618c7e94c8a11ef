import CheckpointLedger.Record

/-!
# The history

The checkpoints that were triggered last, oldest first, and the latest of each
kind of end.

A checkpoint enters when it is triggered and its entry is replaced, in its place,
when it ends; so the entries stay in the order of the triggers. Whenever there
are more entries than the history has room for, the oldest go. The latest
completed checkpoint, savepoint and failed checkpoint are kept beside the entries
and do not go with them.

An entry for a checkpoint in progress does not hold the record itself but the
`Handle` under which the ledger keeps it: the record goes on changing, and every
history that shows it shows what it is by then.
-/

namespace CheckpointLedger

/-- Stands for the record of a checkpoint in progress: its number among all those registered. -/
structure Handle where
  /-- How many records were registered before. -/
  index : Nat
deriving DecidableEq, Repr

/-- One checkpoint of a history. -/
inductive Entry where
  /-- A checkpoint in progress. -/
  | inProgress (id : Nat) (handle : Handle)
  /-- A checkpoint that ended. -/
  | concluded (c : Conclusion)
deriving DecidableEq, Repr

namespace Entry

/-- The id of the checkpoint. -/
def id : Entry → Nat
  | inProgress id _ => id
  | concluded c => c.id

/-- Where the checkpoint stands. -/
def status : Entry → Status
  | inProgress _ _ => .inProgress
  | concluded c => c.status

end Entry

/-- The checkpoints that were triggered last, and the latest of each kind of end. -/
structure History where
  /-- How many entries there is room for. -/
  capacity : Nat
  /-- The entries, oldest first. -/
  entries : List Entry
  /-- The completed checkpoint with the greatest id, savepoints aside. -/
  latestCompleted : Option Completed
  /-- The completed savepoint with the greatest id. -/
  latestSavepoint : Option Completed
  /-- The failed checkpoint with the greatest id. -/
  latestFailed : Option Failed
deriving DecidableEq, Repr

/-- Replaces a record by one with a greater id. -/
def newest {α : Type} (id : α → Nat) (current : Option α) (new : α) : Option α :=
  match current with
  | none => some new
  | some c => if id c < id new then some new else some c

namespace History

/-- A history without entries. -/
def new (capacity : Nat) : History := ⟨capacity, [], none, none, none⟩

/-- The entries, latest first. -/
def latestFirst (h : History) : List Entry := h.entries.reverse

/-- The entry of a checkpoint. -/
def find? (h : History) (id : Nat) : Option Entry := h.entries.find? (·.id == id)

/-- Lets the oldest entries go until the others fit. -/
def evict (h : History) : History :=
  { h with entries := h.entries.drop (h.entries.length - h.capacity) }

/-- A checkpoint was triggered. -/
def trigger (h : History) (id : Nat) (handle : Handle) : History :=
  if h.capacity = 0 then h
  else { h with entries := h.entries ++ [Entry.inProgress id handle] : History }.evict

/-- Remembers an end that is the latest of its kind. -/
def remember (h : History) : Conclusion → History
  | .completed c =>
    if c.properties.kind.isSavepoint then
      { h with latestSavepoint := newest (·.id) h.latestSavepoint c }
    else
      { h with latestCompleted := newest (·.id) h.latestCompleted c }
  | .failed f => { h with latestFailed := newest (·.id) h.latestFailed f }

/-- Replaces the entry of a checkpoint that ended. -/
def replace (h : History) (c : Conclusion) : History :=
  { h with
    entries := h.entries.map (fun e => if e.id = c.id then .concluded c else e) }

/-- Puts a checkpoint that ended where its id belongs. -/
def place (h : History) (c : Conclusion) : History :=
  { h with
    entries :=
      h.entries.takeWhile (·.id < c.id) ++ .concluded c ::
        h.entries.dropWhile (·.id < c.id) }

/-- A checkpoint ended. -/
def conclude (h : History) (c : Conclusion) : History :=
  let h := h.remember c
  if h.capacity = 0 then h
  else if h.entries.any (·.id == c.id) then h.replace c
  else (h.place c).evict

end History

end CheckpointLedger
