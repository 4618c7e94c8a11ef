import CheckpointLedger.Proofs.Latest
import CheckpointLedger.Proofs.Snapshots

/-!
# What gauges read and snapshots show

A gauge reads the ledger itself, at the moment at which it is read. A snapshot that is
asked for at that moment may be an earlier one, and it does not have everything a gauge
reads: the latest completed checkpoint of either kind is kept by the ledger alone.

Nevertheless every gauge can be computed from the snapshot (`Snapshot.reads`). An earlier
snapshot is given out only while it shows the ledger as it is (`UpToDate`), and what it
does not have is the newer of two records that it has (`latestCompleted_run`).

A gauge for a number shows -1 where there is none. That this can be told from a number is
because numbers are natural, and are cut only from above.
-/

namespace CheckpointLedger

namespace Gauge

/-- The gauges that show a number of the latest completed checkpoint. -/
def ofCompleted : List Gauge :=
  [checkpointedSize, metadataSize, fullSize, duration, processedData, persistedData,
   completedId, completedTime]

end Gauge

namespace Snapshot

/-- The number that a snapshot has for a gauge, if it has one. -/
def figure? (s : Snapshot) : Gauge → Option Nat
  | .total => some s.counts.total
  | .inProgress => some s.counts.inProgress
  | .completed => some s.counts.completed
  | .failed => some s.counts.failed
  | .restoreTime => s.latestRestored.map (·.time)
  | .checkpointedSize => s.history.latest?.map (·.acknowledged.checkpointedSize)
  | .metadataSize => s.history.latest?.map (·.metadataSize)
  | .fullSize => s.history.latest?.map (·.acknowledged.stateSize)
  | .duration => s.history.latest?.map (·.duration)
  | .processedData => s.history.latest?.map (·.acknowledged.processedData)
  | .persistedData => s.history.latest?.map (·.acknowledged.persistedData)
  | .externalPath => none
  | .completedId => s.history.latest?.map (·.id)
  | .completedTime => s.history.latest?.map (·.latestAck)

/-- A number as it is shown, and what is shown if there is none. -/
def shown (n : Option Nat) : Int :=
  match n with
  | some n => (min n longMax : Nat)
  | none => -1

/-- What a gauge reads by a snapshot. -/
def reads (s : Snapshot) : Gauge → Value
  | .externalPath => .text ((s.history.latest?.bind (·.pointer)).getD "n/a")
  | g => .long (shown (s.figure? g))

/-- Only a missing number is shown as -1. -/
theorem shown_eq_neg_one_iff (n : Option Nat) :
    -1 ≤ shown n ∧ (shown n = -1 ↔ n = none) := by
  cases n with
  | none => exact ⟨Int.le_refl _, ⟨fun _ => rfl, fun _ => rfl⟩⟩
  | some n =>
    have hpos : (0 : Int) ≤ shown (some n) := Int.natCast_nonneg (min n longMax)
    exact ⟨by omega, ⟨fun h => by omega, fun h => absurd h (Option.some_ne_none n)⟩⟩

theorem reads_of_long {s : Snapshot} {g : Gauge} {n : Int} (h : s.reads g = .long n) :
    n = shown (s.figure? g) := by
  cases g with
  | externalPath => cases h
  | _ => exact (Value.long.inj h).symm

/-- Without a completed checkpoint there is nothing to show of one. -/
theorem reads_default_iff (s : Snapshot) :
    ((∀ g ∈ Gauge.ofCompleted, s.reads g = .long (-1)) ∧ s.reads .externalPath = .text "n/a") ↔
      s.history.latest? = none := by
  constructor
  · rintro ⟨hall, -⟩
    -- one of them is enough
    have hid : shown (s.figure? .completedId) = -1 :=
      Value.long.inj (hall .completedId (by simp [Gauge.ofCompleted]))
    have hnone : s.history.latest?.map (·.id) = none := (shown_eq_neg_one_iff _).2.mp hid
    exact Option.map_eq_none_iff.mp hnone
  · intro hnone
    constructor
    · intro g hg
      have hfigure : s.figure? g = none := by
        simp only [Gauge.ofCompleted, List.mem_cons, List.not_mem_nil, or_false] at hg
        rcases hg with rfl | rfl | rfl | rfl | rfl | rfl | rfl | rfl <;>
          simp only [figure?, hnone, Option.map_none]
      have hlong : s.reads g = .long (shown (s.figure? g)) := by
        cases g with
        | externalPath => simp [Gauge.ofCompleted] at hg
        | _ => rfl
      rw [hlong, hfigure]
      rfl
    · rw [reads, hnone]
      rfl

end Snapshot

theorem History.latest?_eq_none_iff (h : History) :
    h.latest? = none ↔ h.latestCompleted = none ∧ h.latestSavepoint = none := by
  constructor
  · exact newer_eq_none
  · rintro ⟨hcompleted, hsavepoint⟩
    rw [History.latest?, hcompleted, hsavepoint]
    rfl

namespace Ledger

/-- A ledger whose own record is the newer one of its history is read as it is shown. -/
theorem read_compile {l : Ledger} (h : l.latestCompleted = l.history.latest?) (edition : Nat)
    (g : Gauge) : Gauge.read (some l) g = (l.compile edition).reads g := by
  have hfigure : ∀ figure : Completed → Nat,
      Gauge.ofLatest (some l) figure = .long (Snapshot.shown (l.history.latest?.map figure)) := by
    intro figure
    show Gauge.long (-1) (l.latestCompleted.map figure) = _
    rw [h]
    cases l.history.latest? <;> rfl
  have hrestore : Gauge.read (some l) .restoreTime =
      .long (Snapshot.shown (l.latestRestored.map (·.time))) := by
    show Gauge.long (-1) (l.latestRestored.map (·.time)) = _
    cases l.latestRestored <;> rfl
  cases g with
  | total => rfl
  | inProgress => rfl
  | completed => rfl
  | failed => rfl
  | restoreTime => exact hrestore
  | externalPath =>
    show Value.text ((l.latestCompleted.bind (·.pointer)).getD "n/a") = _
    rw [h]
    rfl
  | _ => exact hfigure _

/--
**Gauges read what a snapshot shows.** After any run all gauges can be computed from the
snapshot that is given out then: the counts, when the restore began that was last, and
the figures of the newer of the latest completed checkpoint and the latest savepoint. The
gauges for these figures read -1, and that for the path "n/a", exactly if there is neither
of the two. No number is below -1, and it is -1 only if the snapshot has none to show.
-/
theorem gauges_read_snapshot (config : Config) (ops : List Operation) :
    let l := (new config).after ops
    ∃ s, (l.perform .snapshot).answer = .snapshot s ∧
      (∀ g, Gauge.read (some l) g = s.reads g) ∧
      (((∀ g ∈ Gauge.ofCompleted, Gauge.read (some l) g = .long (-1)) ∧
          Gauge.read (some l) .externalPath = .text "n/a") ↔
        s.history.latestCompleted = none ∧ s.history.latestSavepoint = none) ∧
      ∀ g n, Gauge.read (some l) g = .long n → -1 ≤ n ∧ (n = -1 ↔ s.figure? g = none) := by
  intro l
  obtain ⟨s, hs, hshows⟩ := shown_run config ops
  have hreads : ∀ g, Gauge.read (some l) g = s.reads g := by
    intro g
    rw [hshows]
    exact read_compile (latestCompleted_run config ops) s.edition g
  refine ⟨s, hs, hreads, ?_, fun g n hn => ?_⟩
  · rw [← History.latest?_eq_none_iff, ← Snapshot.reads_default_iff]
    simp only [hreads]
  · rw [hreads] at hn
    rw [Snapshot.reads_of_long hn]
    exact Snapshot.shown_eq_neg_one_iff _

/-- A savepoint of enormous size that was put nowhere; the checkpoint before it ends later. -/
def savedRun : List Operation :=
  [.registerBare 1, .register 2 0 (.savepoint .native) .empty,
   .reportCompleted { Completed.bare 2 with
    properties := .savepoint .native
    metadataSize := wordMax },
   .reportCompleted { Completed.bare 1 with pointer := some "somewhere" }]

theorem savedRun_gauges :
    let l := (new ⟨1⟩).after savedRun
    ∃ s, (l.perform .snapshot).answer = .snapshot s ∧
      s.history.latestCompleted.map (·.pointer) = some (some "somewhere") ∧
      Gauge.read (some l) .externalPath = .text "n/a" ∧
      Gauge.read (some l) .completedId = .long 2 ∧
      Gauge.read (some l) .metadataSize = .long longMax ∧
      Gauge.read (some l) .restoreTime = .long (-1) ∧ s.figure? .restoreTime = none := by
  obtain ⟨s, hs, -, -, hnumbers⟩ := gauges_read_snapshot ⟨1⟩ savedRun
  have hnone : s.figure? .restoreTime = none := (hnumbers .restoreTime (-1) rfl).2.mp rfl
  have hshown : Answer.snapshot s = .snapshot (((new ⟨1⟩).after savedRun).compile 0) :=
    hs.symm
  rw [Answer.snapshot.injEq] at hshown
  exact ⟨s, hs, by rw [hshown]; rfl, rfl, rfl, rfl, rfl, hnone⟩

end Ledger

end CheckpointLedger
