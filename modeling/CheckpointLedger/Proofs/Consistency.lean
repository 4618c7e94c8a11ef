import CheckpointLedger.Proofs.Aggregates
import CheckpointLedger.Proofs.Confluence
import CheckpointLedger.Proofs.Latest

/-!
# A snapshot agrees with itself

A snapshot puts side by side what the ledger keeps in four places: the counts, the
entries of the history, the summary, and the latest records. No operation compares them.
That they fit together is due to the journal, of which each of them is an account:

* the counts are numbers of postings (`counts_run`);
* the entries are those of the last registrations (`Retained`), so they are **a part of
  the entries of all registrations**, and no status is found more often among them than
  there are checkpoints of that status;
* the summary is over all completions (`Summary.viewOf`);
* a latest record is the greatest of its kind (`Greatest`), so an entry of that kind does
  not exceed it, and is that record itself if it has its id.

What makes the second of these exact is that the entries of all registrations show every
conclusion once (`Tracked.conclusions_perm`).
-/

namespace CheckpointLedger

/-- How the checkpoint ended, if it did. -/
def Entry.conclusion? : Entry → Option Conclusion
  | inProgress _ _ => none
  | concluded c => some c

theorem Conclusion.isSome_completed? (c : Conclusion) :
    c.completed?.isSome ↔ c.status = .completed := by
  cases c <;> simp [completed?, status]

theorem Conclusion.isSome_failed? (c : Conclusion) : c.failed?.isSome ↔ c.status = .failed := by
  cases c <;> simp [failed?, status]

namespace History

/-- How many entries are of the given status. -/
def number (h : History) (status : Status) : Nat := h.entries.countP (·.status = status)

/-- The latest record of the kind that an end is of. -/
def latestLike (h : History) : Conclusion → Option Conclusion
  | .completed c =>
    (if c.properties.kind.isSavepoint then h.latestSavepoint else h.latestCompleted).map .completed
  | .failed _ => h.latestFailed.map .failed

end History

/-! ## Entries by status -/

section Entries

variable (es : List Entry)

/-- The entries of a status that is an end are those of which the end is of this kind. -/
theorem countP_status {β : Type} {pick : Conclusion → Option β} {status : Status}
    (hended : status ≠ .inProgress) (hpick : ∀ c, (pick c).isSome ↔ c.status = status) :
    es.countP (·.status = status) = ((es.filterMap Entry.conclusion?).filterMap pick).length := by
  rw [List.filterMap_filterMap, List.length_filterMap_eq_countP]
  refine List.countP_congr (fun e _ => ?_)
  rw [decide_eq_true_iff]
  cases e with
  | inProgress id handle => exact iff_of_false hended.symm Bool.false_ne_true
  | concluded c => exact (hpick c).symm

/-- Every entry is of one of the three. -/
theorem countP_statuses :
    es.countP (·.status = .inProgress) + es.countP (·.status = .completed) +
      es.countP (·.status = .failed) = es.length := by
  induction es with
  | nil => rfl
  | cons e rest ih =>
    rw [List.countP_cons, List.countP_cons, List.countP_cons, List.length_cons]
    cases e.status <;> simp <;> omega

end Entries

/-! ## The greatest of a list -/

/-- The greatest is there if there is any. -/
theorem Greatest.isSome_iff {α : Type} {id : α → Nat} {xs : List α} {latest : Option α}
    (h : Greatest id xs latest) : latest.isSome ↔ 0 < xs.length := by
  rw [← Option.ne_none_iff_isSome, Ne, h.none_iff, List.length_pos_iff]

/-- An element does not exceed the greatest, and is the greatest if it has its id. -/
theorem Greatest.le {α : Type} {id : α → Nat} {xs : List α} {latest : Option α}
    (h : Greatest id xs latest) {x : α} (hx : x ∈ xs) :
    ∃ y, latest = some y ∧ id x ≤ id y ∧ (id x = id y → x = y) := by
  obtain ⟨y, hy, hle⟩ := h.exists_le hx
  refine ⟨y, hy, hle, fun hid => ?_⟩
  have hx' : latest = some x := by
    refine (h.some_iff x).mpr ⟨hx, fun z hz => ?_⟩
    rw [hid]
    exact ((h.some_iff y).mp hy).2 z hz
  exact Option.some.inj (hx'.symm.trans hy)

namespace Ledger

variable {j : Journal} {l : Ledger}

/-! ## The entries of all registrations -/

theorem conclusion?_entryOf (j : Journal) (r : Nat × Handle) :
    (j.entryOf r).conclusion? = j.conclusions.find? (·.id == r.1) := by
  unfold Journal.entryOf
  cases j.conclusions.find? (·.id == r.1) <;> rfl

/-- **The entries of all registrations show every conclusion once.** -/
theorem Tracked.conclusions_perm (h : Tracked j l) :
    ((j.registrations.map j.entryOf).filterMap Entry.conclusion?).Perm j.conclusions := by
  have hids : (j.registrations.map j.entryOf).map Entry.id = j.registrations.map Prod.fst := by
    rw [List.map_map]
    exact List.map_congr_left (fun r _ => j.entryOf_id r)
  have hshown : ((j.registrations.map j.entryOf).filterMap Entry.conclusion?).Nodup := by
    refine List.Nodup.of_map Conclusion.id (List.Nodup.sublist ?_ (hids ▸ h.nodup_ids))
    refine Journal.map_filterMap_sublist (fun e c he => ?_) _
    cases e with
    | inProgress id handle => cases he
    | concluded d => rw [← Option.some.inj he]; rfl
  -- neither list has anything twice, so it is enough that they have the same members
  refine (List.perm_ext_iff_of_nodup hshown (List.Nodup.of_map Conclusion.id h.once)).mpr
    (fun c => ?_)
  simp only [List.mem_filterMap, List.mem_map, exists_exists_and_eq_and, conclusion?_entryOf]
  constructor
  · rintro ⟨r, -, hc⟩
    exact List.mem_of_find?_eq_some hc
  · intro hc
    -- the one that is found under its id is this one, since no id is concluded twice
    obtain ⟨r, hr, hid⟩ := List.mem_map.mp (h.known c.id (List.mem_map_of_mem hc))
    refine ⟨r, hr, ?_⟩
    cases hfind : j.conclusions.find? (·.id == r.1) with
    | none => exact absurd (beq_iff_eq.mpr hid.symm) (List.find?_eq_none.mp hfind c hc)
    | some d =>
      have hdid : d.id = r.1 :=
        beq_iff_eq.mp (List.find?_some (p := fun d : Conclusion => d.id == r.1) hfind)
      have hsame := List.inj_on_of_nodup_map h.once (List.mem_of_find?_eq_some hfind) hc
        (hdid.trans hid)
      rw [hsame]

/-- How many of all registrations stand where. -/
theorem Tracked.countP_entries (h : Tracked j l) :
    let es := j.registrations.map j.entryOf
    es.countP (·.status = .inProgress) + j.conclusions.length = j.registrations.length ∧
    es.countP (·.status = .completed) = j.completions.length ∧
    es.countP (·.status = .failed) = j.failures.length := by
  intro es
  have hcompleted : es.countP (·.status = .completed) = j.completions.length := by
    rw [countP_status es (by decide) Conclusion.isSome_completed?]
    exact (h.conclusions_perm.filterMap _).length_eq
  have hfailed : es.countP (·.status = .failed) = j.failures.length := by
    rw [countP_status es (by decide) Conclusion.isSome_failed?]
    exact (h.conclusions_perm.filterMap _).length_eq
  have hall : _ = j.registrations.length := (countP_statuses es).trans (List.length_map _)
  have := j.length_conclusions
  exact ⟨by omega, hcompleted, hfailed⟩

/-! ## The entries that are retained -/

theorem Retained.sublist {room : Nat} (h : Retained room j l) :
    l.history.entries.Sublist (j.registrations.map j.entryOf) := by
  rw [h.entries]
  exact (List.drop_sublist _ _).map _

theorem Retained.length_eq {room : Nat} (h : Retained room j l) :
    l.history.entries.length = min room j.registrations.length := by
  rw [h.entries, List.length_map, length_rtake]

/-- An end that is shown is one that was accepted. -/
theorem Retained.mem_conclusions {room : Nat} (ht : Tracked j l) (h : Retained room j l)
    {c : Conclusion} (hc : .concluded c ∈ l.history.entries) : c ∈ j.conclusions := by
  refine ht.conclusions_perm.mem_iff.mp ?_
  exact List.mem_filterMap.mpr ⟨_, h.sublist.subset hc, rfl⟩

/-- **No status is shown more often than it is counted**, and all are if nothing went. -/
theorem Retained.number_le {room : Nat} (ht : Tracked j l) (h : Retained room j l) :
    (l.history.number .inProgress ≤ j.counts.inProgress ∧
      l.history.number .completed ≤ j.completions.length ∧
      l.history.number .failed ≤ j.failures.length) ∧
    ((l.history.number .inProgress = j.counts.inProgress ∧
      l.history.number .completed = j.completions.length ∧
      l.history.number .failed = j.failures.length) ↔ j.registrations.length ≤ room) := by
  obtain ⟨hin, hcompleted, hfailed⟩ := ht.countP_entries
  have hcounted : j.counts.inProgress = j.registrations.length - j.conclusions.length := rfl
  have hparts (status : Status) := h.sublist.countP_le (p := fun e => e.status = status)
  have h1 := hparts .inProgress
  have h2 := hparts .completed
  have h3 := hparts .failed
  have hkinds := j.length_conclusions
  -- each part is bounded by its count, so the parts are equal if their sums are
  have hsum : l.history.number .inProgress + l.history.number .completed +
      l.history.number .failed = l.history.entries.length := countP_statuses _
  have hlength := h.length_eq
  unfold History.number at hsum ⊢
  omega

/-! ## The latest records -/

/-- There is a latest completed checkpoint, of either kind, if any completed. -/
theorem latest_isSome_iff (hfigured : Figured j l) (honce : j.concludedIds.Nodup) :
    (l.history.latestCompleted.isSome ∨ l.history.latestSavepoint.isSome) ↔
      0 < j.completions.length := by
  obtain ⟨hcheckpoint, hsavepoint, -, -⟩ := hfigured.greatest honce
  have hsplit : j.completions.length = j.savepoints.length + j.checkpoints.length :=
    List.length_eq_length_filter_add _
  rw [hcheckpoint.isSome_iff, hsavepoint.isSome_iff]
  omega

/-- **An end that was accepted does not exceed the latest of its kind.** -/
theorem latestLike_of_mem (hfigured : Figured j l) (honce : j.concludedIds.Nodup)
    {c : Conclusion} (hc : c ∈ j.conclusions) :
    ∃ d, l.history.latestLike c = some d ∧ c.id ≤ d.id ∧ (c.id = d.id → c = d) := by
  obtain ⟨hcheckpoint, hsavepoint, hfailed, -⟩ := hfigured.greatest honce
  cases c with
  | completed c =>
    have hmem : c ∈ j.completions := List.mem_filterMap.mpr ⟨_, hc, rfl⟩
    -- the greatest among those that are, or are not, savepoints, as this one is
    have hgreatest : ∃ d, (if c.properties.kind.isSavepoint then l.history.latestSavepoint
        else l.history.latestCompleted) = some d ∧ c.id ≤ d.id ∧ (c.id = d.id → c = d) := by
      by_cases hkind : c.properties.kind.isSavepoint = true
      · rw [if_pos hkind]
        exact hsavepoint.le (List.mem_filter.mpr ⟨hmem, hkind⟩)
      · rw [if_neg hkind]
        exact hcheckpoint.le (List.mem_filter.mpr ⟨hmem, by simp [hkind]⟩)
    obtain ⟨d, hd, hle, hsame⟩ := hgreatest
    refine ⟨.completed d, ?_, hle, fun hid => congrArg _ (hsame hid)⟩
    rw [History.latestLike, hd]
    rfl
  | failed f =>
    obtain ⟨d, hd, hle, hsame⟩ := hfailed.le (List.mem_filterMap.mpr ⟨_, hc, rfl⟩)
    refine ⟨.failed d, ?_, hle, fun hid => congrArg _ (hsame hid)⟩
    rw [History.latestLike, hd]
    rfl

/-! ## The whole snapshot -/

/-- Nothing else is posted as a checkpoint that was not in progress. -/
theorem untriggered_posting? {o : Operation} (ho : o.isUntriggered = false) (a : Answer) :
    Journal.untriggered (o.posting? a).toList = 0 := by
  unfold Operation.posting?
  split
  case h_4 => cases ho
  all_goals rfl

/-- Every report of a checkpoint that was not in progress is accepted. -/
theorem untriggered_journal (l : Ledger) (ops : List Operation) :
    (l.journal ops).untriggered = ops.countP (·.isUntriggered) := by
  induction ops generalizing l with
  | nil => rfl
  | cons o rest ih =>
    rw [journal, Journal.untriggered_append, ih, List.countP_cons, Nat.add_comm]
    congr 1
    cases ho : o.isUntriggered with
    | false => exact untriggered_posting? ho _
    | true =>
      cases o with
      | reportUntriggered => rfl
      | _ => cases ho

/--
**All parts of a snapshot fit together.** After any run, with the checkpoints that failed
before they were in progress set aside, a snapshot shows as many entries as there is room
for, or all. Of each status it shows no more than it counts, and exactly as many of all
three if and only if there is room for all. The summary is over as many checkpoints as are
counted as completed, there is a latest completed checkpoint or savepoint if any are, and a
latest failed one if more failed than were set aside. And an end that is shown has an id
not above that of the latest of its kind, and is this very record if the ids are the same.
-/
theorem snapshot_parts_agree (config : Config) (ops : List Operation) :
    let aside := ops.countP (·.isUntriggered)
    ∃ s, (((new config).after ops).perform .snapshot).answer = .snapshot s ∧
      (aside ≤ s.counts.failed ∧ s.counts.failed ≤ s.counts.total) ∧
      s.history.entries.length = min config.historySize (s.counts.total - aside) ∧
      (s.history.number .inProgress ≤ s.counts.inProgress ∧
        s.history.number .completed ≤ s.counts.completed ∧
        s.history.number .failed ≤ s.counts.failed - aside) ∧
      ((s.history.number .inProgress = s.counts.inProgress ∧
        s.history.number .completed = s.counts.completed ∧
        s.history.number .failed = s.counts.failed - aside) ↔
          s.counts.total - aside ≤ config.historySize) ∧
      (let n := s.counts.completed; s.summary.map (·.count) = ⟨n, n, n, n, n⟩) ∧
      ((s.history.latestCompleted.isSome ∨ s.history.latestSavepoint.isSome) ↔
        0 < s.counts.completed) ∧
      (s.history.latestFailed.isSome ↔ aside < s.counts.failed) ∧
      ∀ c, .concluded c ∈ s.history.entries →
        ∃ d, s.history.latestLike c = some d ∧ c.id ≤ d.id ∧ (c.id = d.id → c = d) := by
  intro aside
  obtain ⟨s, hs, hshows⟩ := shown_run config ops
  refine ⟨s, hs, ?_⟩
  have ht := tracked_run config ops
  have hretained := retained_run config ops
  have hfigured := figured_run config ops
  have hcounts : s.counts = ((new config).journal ops).counts :=
    (congrArg Snapshot.counts hshows).trans (counts_run config ops)
  have hhistory : s.history = ((new config).after ops).history :=
    congrArg Snapshot.history hshows
  have hsummary : s.summary = Summary.viewOf ((new config).journal ops).completions :=
    (congrArg Snapshot.summary hshows).trans (view_summary_run config ops)
  have haside : ((new config).journal ops).untriggered = aside := untriggered_journal _ ops
  -- from here on the parts are compared as accounts of one journal
  generalize (new config).journal ops = j at ht hretained hfigured hcounts hsummary haside
  obtain ⟨hle, hiff⟩ := hretained.number_le ht
  have hlength := hretained.length_eq
  obtain ⟨-, -, hfailed, -⟩ := hfigured.greatest ht.once
  have htotal : s.counts.total = j.registrations.length + aside := by rw [hcounts, ← haside]; rfl
  have hcompletedCount : s.counts.completed = j.completions.length := by rw [hcounts]; rfl
  have hfailedCount : s.counts.failed = j.failures.length + aside := by rw [hcounts, ← haside]; rfl
  have hinProgress : s.counts.inProgress = j.counts.inProgress := by rw [hcounts]
  have hsize := ht.size_inProgress
  have hkinds := j.length_conclusions
  rw [hhistory, htotal, hcompletedCount, hfailedCount, hinProgress, Nat.add_sub_cancel,
    Nat.add_sub_cancel]
  refine ⟨by omega, hlength, hle, hiff, ?_, latest_isSome_iff hfigured ht.once, ?_, ?_⟩
  · rw [hsummary]
    simp only [Summary.viewOf, PerProperty.map, Metric.viewOf, List.length_map]
  · rw [hfailed.isSome_iff]
    omega
  · exact fun c hc => latestLike_of_mem hfigured ht.once (hretained.mem_conclusions ht hc)

/-- Room for two of three; the first fails when it has gone, and one more was never there. -/
def crowdedRun : List Operation :=
  [.registerBare 1, .registerBare 2, .registerBare 3, .reportCompleted (.bare 3),
   .reportFailed ⟨(Completed.bare 1).toGathered, 9, none⟩, .reportUntriggered]

theorem crowdedRun_agrees :
    ∃ s, (((new ⟨2⟩).after crowdedRun).perform .snapshot).answer = .snapshot s ∧
      s.history.entries = [.inProgress 2 ⟨1⟩, .concluded (.completed (.bare 3))] ∧
      s.counts = ⟨0, 4, 1, 1, 2⟩ ∧ s.history.number .failed = 0 ∧
      s.history.latestLike (.completed (.bare 3)) = some (.completed (.bare 3)) := by
  obtain ⟨s, hs, -, -, -, -, -, -, -, hlatest⟩ := snapshot_parts_agree ⟨2⟩ crowdedRun
  have hshown : Answer.snapshot s = .snapshot (((new ⟨2⟩).after crowdedRun).compile 0) :=
    hs.symm
  rw [Answer.snapshot.injEq] at hshown
  have hentries : s.history.entries = [.inProgress 2 ⟨1⟩, .concluded (.completed (.bare 3))] := by
    rw [hshown]
    rfl
  obtain ⟨d, hd, -, hsame⟩ := hlatest (.completed (.bare 3)) (by rw [hentries]; simp)
  have hid : d = .completed (.bare 3) := by
    rw [hshown] at hd
    exact (Option.some.inj hd).symm
  exact ⟨s, hs, hentries, by rw [hshown]; rfl, by rw [hshown]; rfl, hid ▸ hd⟩

end Ledger

end CheckpointLedger
