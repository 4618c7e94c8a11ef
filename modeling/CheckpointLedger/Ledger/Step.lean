import CheckpointLedger.Ledger.Gauge
import CheckpointLedger.Notice

/-!
# What an operation brings about

An operation on a ledger has an answer, leaves a ledger, and on its way causes
effects: notices in the log, spans and events, and calls of a listener. Whoever
receives a span, an event or a call can read the gauges at that moment, so these
effects carry what the counting gauges read then.
-/

namespace CheckpointLedger

/-- What an operation causes outside the ledger. -/
inductive Effect where
  /-- Something is written to the log. -/
  | notice (n : Notice)
  /-- A span is emitted. -/
  | span (s : Span) (seen : List Value)
  /-- An event is emitted. -/
  | event (e : Event) (seen : List Value)
  /-- The listener is told that a checkpoint completed. -/
  | completed (seen : List Value)
  /-- The listener is told that a checkpoint failed. -/
  | failed (seen : List Value)
deriving DecidableEq

/-- Who is there to receive effects. -/
structure Audience where
  /-- Whether spans, events and gauges are taken. Without that nothing is told to a listener. -/
  reporter : Bool := true
  /-- Whether there is a listener. -/
  listener : Bool := true
  /-- Whether there is a log. -/
  log : Bool := true
deriving DecidableEq, Repr

namespace Audience

/-- Whether an effect is received. -/
def receives (a : Audience) : Effect → Bool
  | .notice _ => a.log
  | .span _ _ => a.reporter
  | .event _ _ => a.reporter
  | .completed _ => a.reporter && a.listener
  | .failed _ => a.reporter && a.listener

end Audience

/-- The outcome of an operation. -/
structure Step (α : Type) where
  /-- The answer. -/
  answer : α
  /-- The ledger afterwards. -/
  ledger : Ledger
  /-- What was caused on the way, in order. -/
  effects : List Effect

namespace Step

/-- Changes the answer. -/
def map {α β : Type} (f : α → β) (s : Step α) : Step β := ⟨f s.answer, s.ledger, s.effects⟩

end Step

namespace Ledger

/-- What the counting gauges read now. -/
def seen (l : Ledger) : List Value := Gauge.counting.map (Gauge.read (some l))

/-- The scope of all spans and events. -/
def scope : String := "CheckpointStatsTracker"

/-- Nothing that was shown so far is up to date any more. -/
def touch (l : Ledger) : Ledger := { l with current := none }

end Ledger

end CheckpointLedger
