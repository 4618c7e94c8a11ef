import CheckpointLedger.Proofs.Retention
import Mathlib.Data.List.Nodup

/-!
# The latest records and the summary

Beside its entries the history keeps the latest record of each kind, and the ledger
one more and the figures over all completed checkpoints. None of them looks back:
every end that is accepted is folded in when it comes, and nothing of it is ever
taken out. So each is a fold over the conclusions of the journal (`Figured`), and
neither the room in the history nor what happens to its entries has a part in it.

That ends may come in any order is a matter of the folded functions alone. Capped
sums, least and greatest do not mind the order. The record with the greatest id
would, if two had the same id, since then the first one stays; but no checkpoint
is concluded twice.
-/

namespace CheckpointLedger

/-! ## The record with the greatest id -/

section Newest

variable {α : Type} (id : α → Nat)

/-- The first of those with the greatest id. -/
def newestOf (xs : List α) : Option α := xs.foldl (newest id) none

theorem newestOf_concat (xs : List α) (x : α) :
    newestOf id (xs ++ [x]) = newest id (newestOf id xs) x := List.foldl_concat _ _ _ _

theorem newestOf_filter_concat (p : α → Bool) (xs : List α) (x : α) :
    newestOf id ((xs ++ [x]).filter p) =
      if p x then newest id (newestOf id (xs.filter p)) x else newestOf id (xs.filter p) := by
  rw [List.filter_append, List.filter_singleton]
  by_cases hx : p x = true
  · rw [if_pos hx, hx]
    exact newestOf_concat id _ x
  · rw [if_neg hx, Bool.eq_false_iff.mpr hx]
    exact congrArg (newestOf id) (List.append_nil _)

theorem newest_of_lt {c x : α} (h : id c < id x) : newest id (some c) x = some x := if_pos h

theorem newest_of_le {c x : α} (h : id x ≤ id c) : newest id (some c) x = some c :=
  if_neg (Nat.not_lt.mpr h)

/-- Records of different ids may come in either order. -/
theorem newest_right_comm {x y : α} (h : id x ≠ id y) (current : Option α) :
    newest id (newest id current x) y = newest id (newest id current y) x := by
  have hnew : newest id (some x) y = newest id (some y) x := by
    rcases Nat.lt_or_gt_of_ne h with hlt | hgt
    · rw [newest_of_lt id hlt, newest_of_le id (Nat.le_of_lt hlt)]
    · rw [newest_of_le id (Nat.le_of_lt hgt), newest_of_lt id hgt]
  cases current with
  | none => exact hnew
  | some c =>
    rcases Nat.lt_or_ge (id c) (id x) with hx | hx
    · rcases Nat.lt_or_ge (id c) (id y) with hy | hy
      · rw [newest_of_lt id hx, newest_of_lt id hy, hnew]
      · -- the one that is there stands between the two
        rw [newest_of_lt id hx, newest_of_le id (x := y) (by omega), newest_of_le id hy,
          newest_of_lt id hx]
    · rcases Nat.lt_or_ge (id c) (id y) with hy | hy
      · rw [newest_of_le id hx, newest_of_lt id hy, newest_of_le id (x := x) (by omega)]
      · rw [newest_of_le id hx, newest_of_le id hy, newest_of_le id hx]

/-- The newest of records with different ids does not depend on their order. -/
theorem newestOf_perm {xs ys : List α} (h : xs.Perm ys) (hids : (xs.map id).Nodup) :
    newestOf id xs = newestOf id ys := by
  -- of the same id they are the same record, and may trivially be exchanged
  refine h.foldl_eq' (fun x hx y hy current => ?_) none
  by_cases hxy : id x = id y
  · rw [List.inj_on_of_nodup_map hids hx hy hxy]
  · exact newest_right_comm id hxy current

end Newest

/-! ## The figures -/

theorem addCapped_right_comm (a b c : Nat) :
    addCapped (addCapped a b) c = addCapped (addCapped a c) b := by
  unfold addCapped
  omega

theorem Metric.add_right_comm (m : Metric) (a b : Nat) :
    (m.add a).add b = (m.add b).add a := by
  unfold Metric.add
  rw [Metric.mk.injEq]
  refine ⟨rfl, ?_, addCapped_right_comm m.sum a b⟩
  cases m.extremes with
  | none => exact congrArg some (Prod.ext (Nat.min_comm a b) (Nat.max_comm a b))
  | some extremes =>
    exact congrArg some
      (Prod.ext (Nat.min_right_comm extremes.1 a b) (Nat.max_right_comm extremes.2 a b))

theorem Summary.add_right_comm (s : Summary) (c d : Completed) :
    Summary.add (Summary.add s c) d = Summary.add (Summary.add s d) c := by
  unfold Summary.add PerProperty.zipWith
  rw [PerProperty.mk.injEq]
  refine ⟨?_, ?_, ?_, ?_, ?_⟩ <;> exact Metric.add_right_comm _ _ _

/-- The figures over a list of completed checkpoints. -/
def Summary.ofList (cs : List Completed) : Summary := cs.foldl Summary.add .zero

theorem Summary.ofList_perm {cs ds : List Completed} (h : cs.Perm ds) :
    Summary.ofList cs = Summary.ofList ds :=
  h.foldl_eq' (fun c _ d _ s => Summary.add_right_comm s c d) _

/-! ## Each is a fold over the journal -/

namespace History

/-- A completed checkpoint is the latest of its own kind, or changes nothing. -/
theorem conclude_completed (h : History) (c : Completed) :
    (h.conclude (.completed c)).latestCompleted =
      (if !c.properties.kind.isSavepoint then newest (·.id) h.latestCompleted c
        else h.latestCompleted) ∧
    (h.conclude (.completed c)).latestSavepoint =
      (if c.properties.kind.isSavepoint then newest (·.id) h.latestSavepoint c
        else h.latestSavepoint) ∧
    (h.conclude (.completed c)).latestFailed = h.latestFailed := by
  rw [conclude_eq]
  by_cases hkind : c.properties.kind.isSavepoint = true
  · have hremember : h.remember (.completed c) =
        { h with latestSavepoint := newest (·.id) h.latestSavepoint c } := if_pos hkind
    rw [hremember, hkind]
    exact ⟨rfl, rfl, rfl⟩
  · have hremember : h.remember (.completed c) =
        { h with latestCompleted := newest (·.id) h.latestCompleted c } := if_neg hkind
    rw [hremember, Bool.eq_false_iff.mpr hkind]
    exact ⟨rfl, rfl, rfl⟩

theorem conclude_failed (h : History) (f : Failed) :
    (h.conclude (.failed f)).latestCompleted = h.latestCompleted ∧
    (h.conclude (.failed f)).latestSavepoint = h.latestSavepoint ∧
    (h.conclude (.failed f)).latestFailed = newest (·.id) h.latestFailed f := by
  rw [conclude_eq]
  exact ⟨rfl, rfl, rfl⟩

end History

namespace Journal

/-- The completed checkpoints that are no savepoints. -/
def checkpoints (j : Journal) : List Completed :=
  j.completions.filter (fun c => !c.properties.kind.isSavepoint)

/-- The completed savepoints. -/
def savepoints (j : Journal) : List Completed :=
  j.completions.filter (fun c => c.properties.kind.isSavepoint)

/-- Picking elements out of a list leaves their keys in place. -/
theorem map_filterMap_sublist {α β γ : Type} {pick : α → Option β} {key : β → γ} {key' : α → γ}
    (h : ∀ a b, pick a = some b → key b = key' a) (xs : List α) :
    ((xs.filterMap pick).map key).Sublist (xs.map key') := by
  induction xs with
  | nil => exact .slnil
  | cons a rest ih =>
    cases ha : pick a with
    | none =>
      rw [List.filterMap_cons_none ha]
      exact ih.cons _
    | some b =>
      rw [List.filterMap_cons_some ha, List.map_cons, List.map_cons, h a b ha]
      exact ih.cons_cons _

theorem completions_sublist (j : Journal) :
    (j.completions.map (·.id)).Sublist j.concludedIds := by
  refine map_filterMap_sublist (fun c d h => ?_) j.conclusions
  cases c with
  | completed c => rw [← Option.some.inj h]; rfl
  | failed f => exact absurd h (by simp [Conclusion.completed?])

theorem failures_sublist (j : Journal) : (j.failures.map (·.id)).Sublist j.concludedIds := by
  refine map_filterMap_sublist (fun c d h => ?_) j.conclusions
  cases c with
  | completed c => exact absurd h (by simp [Conclusion.failed?])
  | failed f => rw [← Option.some.inj h]; rfl

/-! Where no checkpoint is concluded twice, no id occurs twice among those of one kind. -/

theorem nodup_completions {j : Journal} (honce : j.concludedIds.Nodup) :
    (j.completions.map (·.id)).Nodup := honce.sublist j.completions_sublist

theorem nodup_filter_completions {j : Journal} (honce : j.concludedIds.Nodup)
    (p : Completed → Bool) : ((j.completions.filter p).map (·.id)).Nodup :=
  (nodup_completions honce).sublist (List.filter_sublist.map _)

theorem nodup_failures {j : Journal} (honce : j.concludedIds.Nodup) :
    (j.failures.map (·.id)).Nodup := honce.sublist j.failures_sublist

end Journal

namespace Ledger

/-- What the latest records and the summary have to do with the journal. -/
structure Figured (j : Journal) (l : Ledger) : Prop where
  /-- The summary is that of all completed checkpoints. -/
  summary : l.summary = .ofList j.completions
  /-- The ledger keeps the newest completed checkpoint of either kind. -/
  latest : l.latestCompleted = newestOf (·.id) j.completions
  /-- The history keeps the newest that is no savepoint, -/
  checkpoint : l.history.latestCompleted = newestOf (·.id) j.checkpoints
  /-- the newest savepoint, -/
  savepoint : l.history.latestSavepoint = newestOf (·.id) j.savepoints
  /-- and the newest failed checkpoint. -/
  failed : l.history.latestFailed = newestOf (·.id) j.failures

theorem figured_new (config : Config) : Figured [] (new config) :=
  ⟨rfl, rfl, rfl, rfl, rfl⟩

theorem figured_completed {j : Journal} {l : Ledger} (h : Figured j l) (c : Completed) :
    Figured (j ++ [.concluded (.completed c)]) (l.bookCompleted c) := by
  have hcompletions : Journal.completions (j ++ [.concluded (.completed c)]) =
      j.completions ++ [c] := Journal.completions_append j _
  have hfailures : Journal.failures (j ++ [.concluded (.completed c)]) = j.failures := by
    rw [Journal.failures_append]
    exact List.append_nil _
  obtain ⟨hcheckpoint, hsavepoint, hfailed⟩ := l.history.conclude_completed c
  refine ⟨?_, ?_, ?_, ?_, ?_⟩
  · show Summary.add l.summary c = _
    rw [h.summary, hcompletions, Summary.ofList, Summary.ofList, List.foldl_concat]
  · show newest _ l.latestCompleted c = _
    rw [h.latest, hcompletions, newestOf_concat]
  · show (l.history.conclude (.completed c)).latestCompleted = _
    rw [hcheckpoint, h.checkpoint, Journal.checkpoints, Journal.checkpoints, hcompletions,
      newestOf_filter_concat]
  · show (l.history.conclude (.completed c)).latestSavepoint = _
    rw [hsavepoint, h.savepoint, Journal.savepoints, Journal.savepoints, hcompletions,
      newestOf_filter_concat]
  · show (l.history.conclude (.completed c)).latestFailed = _
    rw [hfailed, h.failed, hfailures]

theorem figured_failed {j : Journal} {l : Ledger} (h : Figured j l) (f : Failed) :
    Figured (j ++ [.concluded (.failed f)]) (l.bookFailed f) := by
  have hcompletions : Journal.completions (j ++ [.concluded (.failed f)]) = j.completions := by
    rw [Journal.completions_append]
    exact List.append_nil _
  have hfailures : Journal.failures (j ++ [.concluded (.failed f)]) = j.failures ++ [f] :=
    Journal.failures_append j _
  obtain ⟨hcheckpoint, hsavepoint, hfailed⟩ := l.history.conclude_failed f
  refine ⟨?_, ?_, ?_, ?_, ?_⟩
  · rw [hcompletions]
    exact h.summary
  · rw [hcompletions]
    exact h.latest
  · show (l.history.conclude (.failed f)).latestCompleted = _
    rw [hcheckpoint, h.checkpoint, Journal.checkpoints, Journal.checkpoints, hcompletions]
  · show (l.history.conclude (.failed f)).latestSavepoint = _
    rw [hsavepoint, h.savepoint, Journal.savepoints, Journal.savepoints, hcompletions]
  · show (l.history.conclude (.failed f)).latestFailed = _
    rw [hfailed, h.failed, hfailures, newestOf_concat]

/-- Without a conclusion nothing changes. -/
theorem figured_beside {j : Journal} {l l' : Ledger} {p : Option Posting} (h : Figured j l)
    (hconclusions : Journal.conclusions p.toList = []) (hsummary : l'.summary = l.summary)
    (hlatest : l'.latestCompleted = l.latestCompleted)
    (hhistory : l'.history = { l.history with entries := l'.history.entries }) :
    Figured (j ++ p.toList) l' := by
  have hcompletions : Journal.completions (j ++ p.toList) = j.completions := by
    rw [Journal.completions_append, Journal.completions, Journal.completions, hconclusions]
    exact List.append_nil _
  have hfailures : Journal.failures (j ++ p.toList) = j.failures := by
    rw [Journal.failures_append, Journal.failures, Journal.failures, hconclusions]
    exact List.append_nil _
  refine ⟨?_, ?_, ?_, ?_, ?_⟩
  · rw [hsummary, hcompletions, h.summary]
  · rw [hlatest, hcompletions, h.latest]
  · rw [hhistory, Journal.checkpoints, hcompletions]
    exact h.checkpoint
  · rw [hhistory, Journal.savepoints, hcompletions]
    exact h.savepoint
  · rw [hhistory, hfailures]
    exact h.failed

/-- **Preserved by every turn.** -/
theorem figured_turn {j : Journal} {l l' : Ledger} {p : Option Posting} {effects : List Effect}
    (hturn : Turn l p effects l') (h : Figured j l) : Figured (j ++ p.toList) l' := by
  rcases hturn.checkpoints with
    ⟨_, hc, hsame⟩ | ⟨record, _, rfl, rfl⟩ | ⟨c, _, _, rfl, rfl⟩
  · refine figured_beside h hc hsame.summary hsame.latestCompleted ?_
    rw [hsame.history]
  · exact figured_beside h rfl rfl rfl (l.history.trigger_eq _ _)
  · cases c with
    | completed c => exact figured_completed h c
    | failed f => exact figured_failed h f

theorem figured_run (config : Config) (ops : List Operation) :
    Figured ((new config).journal ops) ((new config).after ops) :=
  journal_induction (motive := Figured) _ (figured_new config)
    (fun _ _ _ _ _ hturn h => figured_turn hturn h) ops

end Ledger

end CheckpointLedger
