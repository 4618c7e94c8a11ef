import CheckpointLedger.Proofs.Balance
import CheckpointLedger.Proofs.Figures
import CheckpointLedger.Proofs.Snapshots

/-!
# What the summary adds up to

A metric is brought up to date by one value at a time: the first value is the least
and the greatest at once, a later one may move either, and the sum can reach its
ceiling in the middle of a run. `Metric.viewOf` looks at all values together
instead: how many there are, the least, the greatest, the exact sum cut once, and the
average of that sum over that number. Both come to the same (`Metric.view_foldl_add`).

The summary is a fold over the completed checkpoints of the journal (`Figured`), so a
snapshot shows exactly what these come to. There is nothing else that it could depend
on: not what failed, not the room in the history, and, since a sum, a least and a
greatest have no order, not the order of the reports.
-/

namespace CheckpointLedger

/-! ## One property -/

/-- What a list of values comes to. -/
def Metric.viewOf (values : List Nat) : MetricView where
  count := values.length
  min := values.min?
  max := values.max?
  sum := min wordMax (sumOf values)
  average :=
    if values = [] then none
    else some (Double.ofNat (min wordMax (sumOf values)) / Double.ofNat values.length)

/-- From the first value on, each figure is folded for itself. -/
theorem Metric.foldl_add_some (values : List Nat) (count least greatest sum : Nat) :
    values.foldl Metric.add ⟨count, some (least, greatest), sum⟩ =
      ⟨count + values.length, some (values.foldl min least, values.foldl max greatest),
        values.foldl addCapped sum⟩ := by
  induction values generalizing count least greatest sum with
  | nil => rfl
  | cons v rest ih =>
    have hstep : Metric.add ⟨count, some (least, greatest), sum⟩ v =
        ⟨count + 1, some (min least v, max greatest v), addCapped sum v⟩ := rfl
    have hcount : count + 1 + rest.length = count + (v :: rest).length := by
      rw [List.length_cons]
      omega
    rw [List.foldl_cons, hstep, ih, hcount]
    rfl

/-- **A metric shows what its values come to.** -/
theorem Metric.view_foldl_add (values : List Nat) :
    (values.foldl Metric.add .zero).view = Metric.viewOf values := by
  cases values with
  | nil => rfl
  | cons v rest =>
    -- the first value takes the place of both extremes, which is how `min?` begins as well
    have hfold : (v :: rest).foldl Metric.add .zero =
        ⟨1 + rest.length, some (rest.foldl min v, rest.foldl max v),
          rest.foldl addCapped (addCapped 0 v)⟩ :=
      Metric.foldl_add_some rest 1 v v (addCapped 0 v)
    have hcount : 1 + rest.length = (v :: rest).length := Nat.add_comm _ _
    have hsum : rest.foldl addCapped (addCapped 0 v) = min wordMax (sumOf (v :: rest)) :=
      sumCapped_eq (v :: rest)
    rw [hfold, hcount, hsum]
    rfl

/-! ## All five -/

namespace Summary

/-- What a list of completed checkpoints comes to. -/
def viewOf (cs : List Completed) : SummaryView where
  stateSize := Metric.viewOf (cs.map (·.acknowledged.stateSize))
  checkpointedSize := Metric.viewOf (cs.map (·.acknowledged.checkpointedSize))
  duration := Metric.viewOf (cs.map (·.duration))
  processedData := Metric.viewOf (cs.map (·.acknowledged.processedData))
  persistedData := Metric.viewOf (cs.map (·.acknowledged.persistedData))

/-- Each property is folded for itself. -/
theorem foldl_add (cs : List Completed) (s : Summary) :
    cs.foldl Summary.add s =
      { stateSize := (cs.map (·.acknowledged.stateSize)).foldl Metric.add s.stateSize
        checkpointedSize :=
          (cs.map (·.acknowledged.checkpointedSize)).foldl Metric.add s.checkpointedSize
        duration := (cs.map (·.duration)).foldl Metric.add s.duration
        processedData := (cs.map (·.acknowledged.processedData)).foldl Metric.add s.processedData
        persistedData :=
          (cs.map (·.acknowledged.persistedData)).foldl Metric.add s.persistedData } := by
  induction cs generalizing s with
  | nil => rfl
  | cons c rest ih =>
    rw [List.foldl_cons, ih]
    rfl

theorem view_ofList (cs : List Completed) : (Summary.ofList cs).view = viewOf cs := by
  rw [Summary.ofList, foldl_add]
  show PerProperty.mk _ _ _ _ _ = PerProperty.mk _ _ _ _ _
  simp only [PerProperty.mk.injEq]
  refine ⟨?_, ?_, ?_, ?_, ?_⟩ <;> exact Metric.view_foldl_add _

/-- The order of the checkpoints makes no difference. -/
theorem viewOf_perm {cs ds : List Completed} (h : cs.Perm ds) : viewOf cs = viewOf ds := by
  rw [← view_ofList, ← view_ofList, Summary.ofList_perm h]

end Summary

namespace Ledger

/-- The summary shows the completed checkpoints of the journal. -/
theorem view_summary_run (config : Config) (ops : List Operation) :
    ((new config).after ops).summary.view =
      Summary.viewOf ((new config).journal ops).completions := by
  have h : Figured ((new config).journal ops) ((new config).after ops) := figured_run config ops
  rw [h.summary, Summary.view_ofList]

/--
**The summary is exact over every completion that was accepted.** A snapshot asked for
after any run shows, for each of the five properties, what the values of all completed
checkpoints of the journal come to: their number, which is the number of completed
checkpoints counted, the least and the greatest of them, their sum up to its ceiling,
and the average. Any other run whose accepted completions are the same in some order
shows the same, whatever else happened in it and whatever room its history has.
-/
theorem summary_shows_completions (config : Config) (ops : List Operation) :
    let j := (new config).journal ops
    ∃ s, (((new config).after ops).perform .snapshot).answer = .snapshot s ∧
      s.summary = Summary.viewOf j.completions ∧
      (let n := s.counts.completed; s.summary.map (·.count) = ⟨n, n, n, n, n⟩) ∧
      ∀ (config' : Config) (ops' : List Operation),
        ((new config').journal ops').completions.Perm j.completions →
        ∃ t, (((new config').after ops').perform .snapshot).answer = .snapshot t ∧
          t.summary = s.summary := by
  intro j
  obtain ⟨s, hs, hshows⟩ := shown_run config ops
  have hsummary : s.summary = Summary.viewOf j.completions := by
    rw [hshows]
    exact view_summary_run config ops
  have hcounts : s.counts.completed = j.completions.length := by
    rw [hshows]
    exact congrArg Counts.completed (counts_run config ops)
  refine ⟨s, hs, hsummary, ?_, fun config' ops' hperm => ?_⟩
  · rw [hsummary, hcounts]
    simp only [Summary.viewOf, PerProperty.map, Metric.viewOf, List.length_map]
  · obtain ⟨t, ht, hshows'⟩ := shown_run config' ops'
    refine ⟨t, ht, ?_⟩
    rw [hsummary, ← Summary.viewOf_perm hperm, hshows']
    exact view_summary_run config' ops'

/-- A completed checkpoint with a state of the given size. -/
def sized (id size : Nat) : Completed :=
  { Completed.bare id with acknowledged := { Acknowledged.ofGroups [] with stateSize := size } }

/-- The later checkpoint is empty and ends first; the sum of the sizes is above its ceiling. -/
def overfullRun : List Operation :=
  [.registerBare 1, .registerBare 2, .registerBare 3, .reportCompleted (sized 2 0),
   .reportCompleted (sized 1 wordMax), .reportCompleted (sized 3 1)]

/-- The same checkpoints, one after the other, and one that fails. -/
def unhurriedRun : List Operation :=
  [.registerBare 1, .reportCompleted (sized 1 wordMax), .registerBare 2,
   .reportCompleted (sized 2 0), .registerBare 3, .reportCompleted (sized 3 1), .registerBare 4,
   .reportFailed ⟨(Completed.bare 4).toGathered, 0, none⟩]

theorem overfullRun_summary :
    ∃ s t, (((new ⟨0⟩).after overfullRun).perform .snapshot).answer = .snapshot s ∧
      (((new ⟨1⟩).after unhurriedRun).perform .snapshot).answer = .snapshot t ∧
      s.summary.stateSize.min = some 0 ∧ s.summary.stateSize.max = some wordMax ∧
      s.summary.stateSize.sum = wordMax ∧ t.summary = s.summary := by
  have hperm : ((new ⟨1⟩).journal unhurriedRun).completions.Perm
      ((new ⟨0⟩).journal overfullRun).completions :=
    .swap (sized 2 0) (sized 1 wordMax) [sized 3 1]
  obtain ⟨s, hs, hsummary, -, hother⟩ := summary_shows_completions ⟨0⟩ overfullRun
  obtain ⟨t, ht, hsame⟩ := hother ⟨1⟩ unhurriedRun hperm
  refine ⟨s, t, hs, ht, ?_, ?_, ?_, hsame⟩ <;> rw [hsummary] <;> rfl

end Ledger

end CheckpointLedger
