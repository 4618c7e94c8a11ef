/-!
# What a caller can do wrong

The four ways to break the protocol of the ledger. Reports that merely come too
late or twice are no such thing; they are answered with `false`.
-/

namespace CheckpointLedger

/-- A breach of protocol. -/
inductive Error where
  /-- A checkpoint was registered with an id that does not exceed the last one. -/
  | nonIncreasing (id last : Nat)
  /-- The end of a checkpoint was reported that is not in progress. -/
  | notInProgress (id : Nat)
  /-- The record of a checkpoint was asked for its result a second time. -/
  | alreadyFinalized (id : Nat)
  /-- A restored checkpoint was reported before any initialization began. -/
  | noInitialization (id : Nat)
deriving DecidableEq, Repr

namespace Error

/-- The error in words. -/
def message : Error → String
  | nonIncreasing id last => s!"checkpoint id {id} must be greater than the last reported id {last}"
  | notInProgress id => s!"checkpoint {id} is not in progress"
  | alreadyFinalized id => s!"checkpoint {id} has already been finalized"
  | noInitialization id => s!"restored checkpoint {id} reported before any initialization started"

end Error

end CheckpointLedger
