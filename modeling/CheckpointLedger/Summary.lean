import CheckpointLedger.Record

/-!
# Figures over all completed checkpoints

For five properties of a completed checkpoint the ledger keeps how many values
there were, the least, the greatest and the sum. Every checkpoint that ever
completed counts, whether the history still shows it or not.

The least and the greatest are kept together as an optional pair: they exist as
soon as there is a value, and zero is a value like any other.
-/

namespace CheckpointLedger

/-- The values of one property so far. -/
structure Metric where
  /-- How many there were. -/
  count : Nat
  /-- The least and the greatest. -/
  extremes : Option (Nat × Nat)
  /-- Their sum. -/
  sum : Nat
deriving DecidableEq, Repr

/-- A metric as it is shown. -/
structure MetricView where
  /-- How many values there were. -/
  count : Nat
  /-- The least. -/
  min : Option Nat
  /-- The greatest. -/
  max : Option Nat
  /-- Their sum. -/
  sum : Nat
  /-- Their average. -/
  average : Option Float

namespace MetricView

instance : Record MetricView where
  fields :=
    [⟨"count", .forbidden⟩, ⟨"min", .nothing⟩, ⟨"max", .nothing⟩, ⟨"sum", .forbidden⟩,
     ⟨"average", .nothing⟩]
  toValues v := [encode v.count, encode v.min, encode v.max, encode v.sum, encode v.average]
  ofValues
    | [count, min, max, sum, average] => do
      return {
        count := ← Field.required count
        min := ← Field.optional min
        max := ← Field.optional max
        sum := ← Field.required sum
        average := ← Field.optional average }
    | _ => none

end MetricView

namespace Metric

/-- Before the first value. -/
def zero : Metric := ⟨0, none, 0⟩

/-- One more value. -/
def add (m : Metric) (value : Nat) : Metric where
  count := m.count + 1
  extremes :=
    match m.extremes with
    | none => some (value, value)
    | some (least, greatest) => some (min least value, max greatest value)
  sum := addCapped m.sum value

/-- The sum over the count, both taken as the nearest binary64 numbers. -/
def average (m : Metric) : Float := Double.ofNat m.sum / Double.ofNat m.count

/-- What is shown: without values there is nothing but zeros. -/
def view (m : Metric) : MetricView where
  count := m.count
  min := m.extremes.map Prod.fst
  max := m.extremes.map Prod.snd
  sum := m.sum
  average := m.extremes.map (fun _ => m.average)

end Metric

/-- Something for each of the five properties. -/
structure PerProperty (α : Type) where
  /-- Bytes of the whole state. -/
  stateSize : α
  /-- Bytes written for the checkpoint. -/
  checkpointedSize : α
  /-- Time from the trigger to the last acknowledgement. -/
  duration : α
  /-- Bytes processed while aligning. -/
  processedData : α
  /-- Bytes of data in flight that were persisted. -/
  persistedData : α
deriving DecidableEq, Repr

namespace PerProperty

variable {α β γ : Type}

/-- Applies a function to each. -/
def map (f : α → β) (a : PerProperty α) : PerProperty β where
  stateSize := f a.stateSize
  checkpointedSize := f a.checkpointedSize
  duration := f a.duration
  processedData := f a.processedData
  persistedData := f a.persistedData

/-- Combines two property by property. -/
def zipWith (f : α → β → γ) (a : PerProperty α) (b : PerProperty β) : PerProperty γ where
  stateSize := f a.stateSize b.stateSize
  checkpointedSize := f a.checkpointedSize b.checkpointedSize
  duration := f a.duration b.duration
  processedData := f a.processedData b.processedData
  persistedData := f a.persistedData b.persistedData

/-- The five properties of a completed checkpoint. -/
def ofCompleted (c : Completed) : PerProperty Nat where
  stateSize := c.acknowledged.stateSize
  checkpointedSize := c.acknowledged.checkpointedSize
  duration := c.duration
  processedData := c.acknowledged.processedData
  persistedData := c.acknowledged.persistedData

end PerProperty

/-- The figures over all completed checkpoints. -/
abbrev Summary := PerProperty Metric

/-- The figures as they are shown. -/
abbrev SummaryView := PerProperty MetricView

namespace Summary

/-- Before the first completed checkpoint. -/
def zero : Summary := ⟨.zero, .zero, .zero, .zero, .zero⟩

/-- One more completed checkpoint. -/
def add (s : Summary) (c : Completed) : Summary := s.zipWith Metric.add (.ofCompleted c)

/-- What is shown. -/
def view (s : Summary) : SummaryView := s.map Metric.view

end Summary

instance : Record SummaryView where
  fields :=
    [⟨"state_size", .forbidden⟩, ⟨"checkpointed_size", .forbidden⟩,
     ⟨"end_to_end_duration", .forbidden⟩, ⟨"processed_data", .forbidden⟩,
     ⟨"persisted_data", .forbidden⟩]
  toValues v :=
    [encode v.stateSize, encode v.checkpointedSize, encode v.duration,
     encode v.processedData, encode v.persistedData]
  ofValues
    | [stateSize, checkpointedSize, duration, processedData, persistedData] => do
      return {
        stateSize := ← Field.required stateSize
        checkpointedSize := ← Field.required checkpointedSize
        duration := ← Field.required duration
        processedData := ← Field.required processedData
        persistedData := ← Field.required persistedData }
    | _ => none

end CheckpointLedger
