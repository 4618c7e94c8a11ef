import CheckpointLedger.Ledger.Step

/-!
# Following restores

The operations around a start of the job: a generation of attempts begins, its
attempts report, and the checkpoint is named that the job is restored from.
Whichever of these is the last makes the generation complete, and that is when it
is told. A generation that was not complete when the next began is never told.
-/

namespace CheckpointLedger

namespace Ledger

/-- Warns when a generation is given up. -/
def discardNotice (l : Ledger) : List Effect :=
  match l.generation.filter (!·.completed) with
  | some g => [.notice (.discarded g.number g.missing)]
  | none => []

/-- The next generation of attempts begins. -/
def beginInitialization (l : Ledger) (attempts : List AttemptId) (start : Nat) : Step Unit :=
  let number := l.generations + 1
  let g := Generation.new number start attempts
  ⟨(), { l with generation := some g, generations := number }.touch,
    l.discardNotice ++ [.notice (.initializationStarted number g.attempts.size start)]⟩

/-- What the outside learns of a complete generation. -/
def tell (l : Ledger) (i : Initialization) : List Effect :=
  [.notice (.initializationCompleted i.generation i.checkpoint i.duration i.attempts
    i.status.display),
   .span (i.span scope) l.seen]

/--
Puts a changed generation in the place of the current one, and completes it if
everything is known.
-/
def settle (l : Ledger) (g : Generation) : Ledger × Option Initialization :=
  match g.complete? with
  | none => ({ l with generation := some g }, none)
  | some (i, g) => ({ l with generation := some g, latestInitialization := some i }, some i)

/-- What the outside learns when a generation is settled. -/
def settled (l : Ledger × Option Initialization) : List Effect :=
  match l.2 with
  | none => []
  | some i => l.1.tell i

/-- An attempt reports. Whether its report was awaited is the answer. -/
def reportMetrics (l : Ledger) (attempt : AttemptId) (metrics : AttemptMetrics) : Step Bool :=
  match l.generation.filter (·.awaits attempt) with
  | none => ⟨false, l, [.notice (.metricsIgnored attempt)]⟩
  | some g =>
    let after := l.touch.settle (g.record attempt metrics)
    ⟨true, after.1, settled after⟩

/-- The checkpoint is named that the job is restored from. -/
def reportRestored (l : Ledger) (id : Nat) (properties : Properties) (path : Option String)
    (stateSize : Nat) : Step (Except Error Unit) :=
  match l.generation with
  | none => ⟨.error (.noInitialization id), l, [.notice (.restoredTooEarly id)]⟩
  | some g =>
    let restored : Restored := ⟨id, properties, g.start, path, stateSize⟩
    let l := { l with counts := l.counts.addRestored, latestRestored := some restored }.touch
    let after := l.settle (g.attach restored)
    ⟨.ok (), after.1, .notice (.restored id stateSize) :: settled after⟩

end Ledger

end CheckpointLedger
