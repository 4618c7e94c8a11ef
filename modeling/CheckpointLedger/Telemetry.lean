import CheckpointLedger.OrderedMap
import CheckpointLedger.Word

/-!
# Spans, events and the values on them

What the ledger tells the outside about a checkpoint or a restore: a span over
the time it took, an event at its end, and gauges that can be read at any time.
All of them carry values of one kind, a signed 64-bit number or a text.
-/

namespace CheckpointLedger

/-- What a gauge reads or an attribute holds. -/
inductive Value where
  /-- A number. -/
  | long (n : Int)
  /-- A text. -/
  | text (s : String)
deriving DecidableEq, Repr

namespace Value

/-- A natural number, cut to the greatest that can be shown. -/
def ofNat (n : Nat) : Value := long (toLong n)

/-- The number, if it is one. -/
def asLong? : Value → Option Int
  | long n => some n
  | text _ => none

/-- The text, if it is one. -/
def asText? : Value → Option String
  | long _ => none
  | text s => some s

/-- The value in words. -/
def display : Value → String
  | long n => toString n
  | text s => s

end Value

/-- Named values, in the order of their names. -/
abbrev Attributes := OrderedMap String Value

/-- Something that took time. -/
structure Span where
  /-- Where it comes from. -/
  scope : String
  /-- What it is. -/
  name : String
  /-- When it began. -/
  start : Nat
  /-- When it ended. -/
  stop : Nat
  /-- What is known of it. -/
  attributes : Attributes
deriving DecidableEq

namespace Span

/-- A span without times and attributes. -/
def new (scope name : String) : Span := ⟨scope, name, 0, 0, .empty⟩

/-- Sets the times. -/
def withInterval (s : Span) (start stop : Nat) : Span := { s with start := start, stop := stop }

/-- Sets one attribute. -/
def withAttribute (s : Span) (name : String) (value : Value) : Span :=
  { s with attributes := s.attributes.insert name value }

/-- Sets several attributes and leaves the others. -/
def withAttributes (s : Span) (attributes : Attributes) : Span :=
  { s with attributes := s.attributes.insertAll attributes.entries }

end Span

/-- Something that happened. -/
structure Event where
  /-- Where it comes from. -/
  scope : String
  /-- What it is. -/
  name : String
  /-- When it was seen. -/
  observed : Nat
  /-- What is known of it. -/
  attributes : Attributes
deriving DecidableEq

namespace Event

/-- An event without attributes. -/
def new (scope name : String) (observed : Nat) : Event := ⟨scope, name, observed, .empty⟩

/-- Sets the attributes, whatever they were. -/
def withAttributes (e : Event) (attributes : Attributes) : Event :=
  { e with attributes := attributes }

end Event

end CheckpointLedger
