import CheckpointLedger.Record
import CheckpointLedger.Telemetry

/-!
# Restoring a job

Whenever a job is started again, a new **generation** of execution attempts
initializes itself. Each attempt reports once how that went, and what checkpoint
the job starts from is reported too. When all attempts have reported and the
checkpoint is known, the generation is complete and is told in one record.

A generation keeps a place for every attempt it expects, empty until the attempt
reports. So an attempt that is not expected cannot report, and none reports
twice; and since the places are in the order of the attempts' ids, the record
does not depend on who came first.
-/

namespace CheckpointLedger

/-- How an initialization ended. -/
inductive InitializationStatus where
  /-- With success. -/
  | completed
  /-- Without. -/
  | failed
deriving DecidableEq, Repr

namespace InitializationStatus

instance : Named InitializationStatus where
  all := [.completed, .failed]
  name
    | .completed => "Completed"
    | .failed => "Failed"

/-- The status as shown to people. -/
def display : InitializationStatus → String
  | .completed => "COMPLETED"
  | .failed => "FAILED"

end InitializationStatus

/-- Milliseconds by name. -/
abbrev Durations := OrderedMap String Nat

namespace Durations

/-- Adds to what a name has already. -/
def add (d : Durations) (name : String) (value : Nat) : Durations :=
  d.alter name (fun total => some (addCapped (total.getD 0) value))

end Durations

/-- What one execution attempt reports of its initialization. -/
structure AttemptMetrics where
  /-- When it began. -/
  start : Nat
  /-- When it ended. -/
  stop : Nat
  /-- How long its phases took. -/
  durations : Durations
  /-- How it ended. -/
  status : InitializationStatus
deriving DecidableEq

namespace AttemptMetrics

/--
The metrics of an attempt whose phases are measured one after the other. One that
does not say how it ended has failed.
-/
def ofMeasurements (start stop : Nat) (status : Option InitializationStatus)
    (measured : List (String × Nat)) : AttemptMetrics where
  start := start
  stop := stop
  durations := measured.foldl (fun d m => d.add m.1 m.2) .empty
  status := status.getD .failed

instance : Record AttemptMetrics where
  fields :=
    [⟨"initialization_start_ts", .forbidden⟩, ⟨"initialization_end_ts", .forbidden⟩,
     ⟨"duration_metrics", .forbidden⟩, ⟨"status", .forbidden⟩]
  toValues m := [encode m.start, encode m.stop, encode m.durations, encode m.status]
  ofValues
    | [start, stop, durations, status] => do
      return {
        start := ← Field.required start
        stop := ← Field.required stop
        durations := ← Field.required durations
        status := ← Field.required status }
    | _ => none

end AttemptMetrics

/-- One duration over all attempts that measured it. -/
structure DurationTotals where
  /-- The longest. -/
  max : Nat
  /-- All together. -/
  sum : Nat
deriving DecidableEq, Repr

namespace DurationTotals

instance : Record DurationTotals where
  fields := [⟨"max", .forbidden⟩, ⟨"sum", .forbidden⟩]
  toValues t := [encode t.max, encode t.sum]
  ofValues
    | [max, sum] => do
      return ⟨← Field.required max, ← Field.required sum⟩
    | _ => none

/-- One more measurement. -/
def add (t : Option DurationTotals) (value : Nat) : DurationTotals where
  max := Nat.max ((t.map (·.max)).getD 0) value
  sum := addCapped ((t.map (·.sum)).getD 0) value

/-- The totals of all durations that some attempt measured. -/
def ofAttempts (attempts : List AttemptMetrics) : OrderedMap String DurationTotals :=
  attempts.foldl
    (fun totals a =>
      a.durations.entries.foldl (fun totals d => totals.alter d.1 (fun t => some (add t d.2)))
        totals)
    .empty

end DurationTotals

/-- A generation that is complete. -/
structure Initialization where
  /-- Its number. -/
  generation : Nat
  /-- The checkpoint the job was restored from. -/
  checkpoint : Nat
  /-- Bytes of that checkpoint's state. -/
  stateSize : Nat
  /-- When it began. -/
  start : Nat
  /-- When the last attempt was done. -/
  stop : Nat
  /-- How it ended. -/
  status : InitializationStatus
  /-- How many attempts there were. -/
  attempts : Nat
  /-- How long the phases took. -/
  durations : OrderedMap String DurationTotals
deriving DecidableEq

namespace Initialization

instance : Record Initialization where
  fields :=
    [⟨"generation", .forbidden⟩, ⟨"checkpoint_id", .forbidden⟩, ⟨"state_size", .forbidden⟩,
     ⟨"start_ts", .forbidden⟩, ⟨"end_ts", .forbidden⟩, ⟨"status", .forbidden⟩,
     ⟨"num_attempts", .forbidden⟩, ⟨"duration_metrics", .forbidden⟩]
  toValues i :=
    [encode i.generation, encode i.checkpoint, encode i.stateSize, encode i.start,
     encode i.stop, encode i.status, encode i.attempts, encode i.durations]
  ofValues
    | [generation, checkpoint, stateSize, start, stop, status, attempts, durations] => do
      return {
        generation := ← Field.required generation
        checkpoint := ← Field.required checkpoint
        stateSize := ← Field.required stateSize
        start := ← Field.required start
        stop := ← Field.required stop
        status := ← Field.required status
        attempts := ← Field.required attempts
        durations := ← Field.required durations }
    | _ => none

/-- The time from its beginning to its end. -/
def duration (i : Initialization) : Nat := i.stop - i.start

/-- Two attributes for a duration: its name behind `Max` and behind `Sum`. -/
def addDuration (s : Span) (name : String) (totals : DurationTotals) : Span :=
  (s.withAttribute ("Max" ++ name) (.ofNat totals.max)).withAttribute
    ("Sum" ++ name) (.ofNat totals.sum)

/-- The span of a complete generation. -/
def span (i : Initialization) (scope : String) : Span :=
  i.durations.entries.foldl (fun s d => addDuration s d.1 d.2)
    ((((Span.new scope "JobInitialization").withInterval i.start i.stop).withAttribute
      "checkpointId" (.ofNat i.checkpoint)).withAttribute
        "fullSize" (.ofNat i.stateSize) |>.withAttribute
          "initializationStatus" (.text i.status.display))

end Initialization

/-- The attempts of one start of a job. -/
structure Generation where
  /-- Its number, counted from one. -/
  number : Nat
  /-- When it began. -/
  start : Nat
  /-- The attempts that are expected, with what they reported. -/
  attempts : OrderedMap AttemptId (Option AttemptMetrics)
  /-- The checkpoint the job was restored from, once it is known. -/
  restored : Option Restored
  /-- Whether the generation was told already. -/
  completed : Bool
deriving DecidableEq

namespace Generation

/-- A generation nothing is known of yet. -/
def new (number start : Nat) (expected : List AttemptId) : Generation where
  number := number
  start := start
  attempts := .ofList (expected.map (·, none))
  restored := none
  completed := false

/-- The reports that came in, by attempt. -/
def reports (g : Generation) : List AttemptMetrics := g.attempts.values.filterMap (fun m => m)

/-- How many attempts have not reported. -/
def missing (g : Generation) : Nat := g.attempts.values.countP Option.isNone

/-- Whether the report of an attempt is awaited. -/
def awaits (g : Generation) (attempt : AttemptId) : Bool :=
  !g.completed && g.attempts.find? attempt == some none

/-- Takes the report of an attempt. -/
def record (g : Generation) (attempt : AttemptId) (metrics : AttemptMetrics) : Generation :=
  { g with attempts := g.attempts.insert attempt (some metrics) }

/-- The checkpoint the job was restored from is known. -/
def attach (g : Generation) (restored : Restored) : Generation :=
  { g with restored := some restored }

/-- The generation in one record, if the checkpoint is the given one. -/
def consolidate (g : Generation) (restored : Restored) : Initialization where
  generation := g.number
  checkpoint := restored.id
  stateSize := restored.stateSize
  start := g.start
  stop := (g.reports.map (·.stop)).max?.getD g.start
  status := if g.reports.all (·.status == .completed) then .completed else .failed
  attempts := g.reports.length
  durations := DurationTotals.ofAttempts g.reports

/--
Completes a generation of which everything is known, and gives its record. That
happens once.
-/
def complete? (g : Generation) : Option (Initialization × Generation) :=
  if g.completed || g.missing != 0 then none
  else g.restored.map (fun restored => (g.consolidate restored, { g with completed := true }))

end Generation

end CheckpointLedger
