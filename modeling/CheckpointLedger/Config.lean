import CheckpointLedger.Json.Codec

/-!
# Configuration

There is one thing to choose, how many checkpoints the history shows. A document
may leave it out.
-/

namespace CheckpointLedger

/-- How a ledger is set up. -/
structure Config where
  /-- How many checkpoints the history has room for; with none the rest of the ledger works on. -/
  historySize : Nat := 10
deriving DecidableEq, Repr

namespace Config

instance : Record Config where
  fields := [⟨"history_size", .default⟩]
  toValues c := [encode c.historySize]
  ofValues
    | [historySize] => do
      return ⟨← Field.defaulted ({} : Config).historySize historySize⟩
    | _ => none

/-- Why a configuration cannot be read. -/
inductive Error where
  /-- The text is no document, or not one of a configuration. -/
  | unreadable
deriving DecidableEq, Repr

/-- The error in words. -/
def Error.message : Error → String
  | unreadable => "Failed to parse checkpoint stats config"

/-- The configuration that a text writes. -/
def ofText (text : String) : Except Error Config :=
  match Codec.read text with
  | some config => .ok config
  | none => .error .unreadable

end Config

end CheckpointLedger
