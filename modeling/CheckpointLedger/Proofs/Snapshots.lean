import CheckpointLedger.Proofs.Quiet

/-!
# Snapshots

A snapshot is made once and given out until something is accepted. That it is never
out of date is an invariant (`UpToDate`): while there is a current snapshot, it shows
what one made now would show. Every posting does away with the current snapshot, and
what is not posted changes nothing that a snapshot shows: the records change, but a
snapshot has no records, only handles.

Editions are numbers that only grow. So from one snapshot on, a ledger either still
has it, or has none, or has a later one (`Since`), and which of these it is depends on
whether something was accepted.
-/

namespace CheckpointLedger

namespace Snapshot

/-- What a snapshot shows is what the ledger has, part by part. -/
structure Shows (s : Snapshot) (l : Ledger) : Prop where
  counts : s.counts = l.counts
  summary : s.summary = l.summary.view
  history : s.history = l.history
  latestRestored : s.latestRestored = l.latestRestored
  latestInitialization : s.latestInitialization = l.latestInitialization

theorem shows_iff {s : Snapshot} {l : Ledger} : s.Shows l ↔ s = l.compile s.edition := by
  constructor
  · rintro ⟨hcounts, hsummary, hhistory, hrestored, hinitialization⟩
    rw [Ledger.compile, ← hcounts, ← hsummary, ← hhistory, ← hrestored, ← hinitialization]
  · intro h
    rw [h]
    exact ⟨rfl, rfl, rfl, rfl, rfl⟩

end Snapshot

namespace Ledger

/-! ## The current snapshot -/

/-- The current snapshot shows the ledger as it is. -/
structure UpToDate (l : Ledger) : Prop where
  /-- It is what would be made now, its edition aside. -/
  shows : ∀ s, l.current = some s → s = l.compile s.edition
  /-- It was counted. -/
  counted : ∀ s, l.current = some s → s.edition < l.editions

theorem upToDate_of_none {l : Ledger} (h : l.current = none) : UpToDate l where
  shows s hs := absurd (h.symm.trans hs) (Option.some_ne_none s).symm
  counted s hs := absurd (h.symm.trans hs) (Option.some_ne_none s).symm

/-- Whatever is accepted does away with the current snapshot. -/
theorem current_of_posted {l l' : Ledger} {p : Posting} {effects : List Effect}
    (h : Turn l (some p) effects l') : l'.current = none ∧ l'.editions = l.editions := by
  cases h with
  | registered _ => exact ⟨rfl, rfl⟩
  | @concluded c _ _ => cases c <;> exact ⟨rfl, rfl⟩
  | untriggered hl => rw [hl]; exact ⟨rfl, rfl⟩
  | began => exact ⟨rfl, rfl⟩
  | measured _ _ => rw [settle_fst]; exact ⟨rfl, rfl⟩
  | restored _ _ hl => rw [settle_fst, hl]; exact ⟨rfl, rfl⟩

/-- Asked for, a snapshot shows the ledger at that moment, and is then the current one. -/
theorem UpToDate.snapshot {l : Ledger} (h : UpToDate l) :
    l.snapshot.1 = l.compile l.snapshot.1.edition ∧ l.snapshot.2.current = some l.snapshot.1 ∧
      UpToDate l.snapshot.2 := by
  unfold Ledger.snapshot
  cases hcurrent : l.current with
  | some s => exact ⟨h.shows s hcurrent, hcurrent, h⟩
  | none =>
    refine ⟨rfl, rfl, ⟨fun s hs => ?_, fun s hs => ?_⟩⟩
    · rw [← Option.some.inj hs]
      rfl
    · rw [← Option.some.inj hs]
      exact Nat.lt_succ_self _

theorem upToDate_quiet {l l' : Ledger} {o : Operation} (hquiet : Quiet l o l')
    (h : UpToDate l) : UpToDate l' := by
  cases hquiet with
  | declined => exact h
  | kept _ _ => exact ⟨h.shows, h.counted⟩
  | shown => exact h.snapshot.2.2

theorem upToDate_after {l : Ledger} (ops : List Operation) (h : UpToDate l) :
    UpToDate (l.after ops) := by
  refine quiet_induction (motive := fun _ l => UpToDate l) l h ?_ ?_ ops
  · exact fun _ _ _ _ _ hturn _ => upToDate_of_none (current_of_posted hturn).1
  · exact fun _ _ _ _ hquiet h => upToDate_quiet hquiet h

/-- A snapshot that is asked for after any run shows what the run has left. -/
theorem shown_run (config : Config) (ops : List Operation) :
    ∃ s, (((new config).after ops).perform .snapshot).answer = .snapshot s ∧
      s = ((new config).after ops).compile s.edition := by
  have h : UpToDate ((new config).after ops) := upToDate_after ops (upToDate_of_none rfl)
  exact ⟨_, rfl, h.snapshot.1⟩

/-! ## From one snapshot to the next -/

/-- How a ledger stands to a snapshot, of which it has accepted a journal since. -/
structure Since (s : Snapshot) (j : Journal) (l : Ledger) : Prop where
  /-- The next edition is a later one. -/
  counted : s.edition < l.editions
  /-- As long as nothing is accepted, it is the current one. -/
  same : j = [] → l.current = some s
  /-- From then on it is not; if there is one, it is a later one. -/
  later : j ≠ [] → ∀ t, l.current = some t → s.edition < t.edition

theorem since_snapshot {l : Ledger} (h : UpToDate l) :
    Since l.snapshot.1 [] l.snapshot.2 where
  counted := h.snapshot.2.2.counted _ h.snapshot.2.1
  same := fun _ => h.snapshot.2.1
  later := fun hne => absurd rfl hne

theorem since_posted {s : Snapshot} {j : Journal} {l l' : Ledger} {p : Posting}
    {effects : List Effect} (hturn : Turn l (some p) effects l') (h : Since s j l) :
    Since s (j ++ [p]) l' := by
  obtain ⟨hnone, heditions⟩ := current_of_posted hturn
  refine ⟨heditions ▸ h.counted, fun hnil => ?_, fun _ t ht => ?_⟩
  · exact absurd hnil (List.append_ne_nil_of_right_ne_nil j (List.cons_ne_nil p []))
  · rw [hnone] at ht
    cases ht

theorem since_quiet {s : Snapshot} {j : Journal} {l l' : Ledger} {o : Operation}
    (hquiet : Quiet l o l') (h : Since s j l) : Since s j l' := by
  cases hquiet with
  | declined => exact h
  | kept _ _ => exact ⟨h.counted, h.same, h.later⟩
  | shown =>
    unfold Ledger.snapshot
    cases hcurrent : l.current with
    | some t => exact h
    | none =>
      refine ⟨Nat.lt_succ_of_lt h.counted, fun hnil => ?_, fun _ t ht => ?_⟩
      · -- the snapshot would still be the current one
        have hsame := h.same hnil
        rw [hcurrent] at hsame
        cases hsame
      · rw [← Option.some.inj ht]
        exact h.counted

theorem since_run {s : Snapshot} {l : Ledger} (h : Since s [] l) (ops : List Operation) :
    Since s (l.journal ops) (l.after ops) := by
  refine quiet_induction (motive := Since s) l h ?_ ?_ ops
  · exact fun _ _ _ _ _ hturn h => since_posted hturn h
  · exact fun _ _ _ _ hquiet h => since_quiet hquiet h

/-- What is given out next is the same, or a later edition. -/
theorem Since.next {s : Snapshot} {j : Journal} {l : Ledger} (h : Since s j l) :
    (j = [] → l.snapshot.1 = s) ∧ (j ≠ [] → s.edition < l.snapshot.1.edition) := by
  unfold Ledger.snapshot
  cases hcurrent : l.current with
  | some t =>
    refine ⟨fun hnil => ?_, fun hne => h.later hne t hcurrent⟩
    exact Option.some.inj (hcurrent.symm.trans (h.same hnil))
  | none => exact ⟨fun hnil => absurd (hcurrent.symm.trans (h.same hnil)) nofun, fun _ => h.counted⟩

/--
**A snapshot shows the ledger as it is, and is given out until something is accepted.**
Whatever was done before, a snapshot that is asked for shows what one would show that
is made from the ledger at that moment: its counts, figures, history, latest restore and
latest complete generation are those of the ledger. And asked for again, after whatever
else was done, it is the same snapshot, of the same edition, exactly if nothing of that
was accepted; what was declined, and what only the records had to know, makes no
difference.
-/
theorem snapshot_same_iff (config : Config) (before between : List Operation) :
    let l := (new config).after before
    let first := l.perform .snapshot
    let l' := first.ledger.after between
    ∃ s t, first.answer = .snapshot s ∧ (l'.perform .snapshot).answer = .snapshot t ∧
      s = l.compile s.edition ∧ t = l'.compile t.edition ∧ s.Shows l ∧ t.Shows l' ∧
      (t = s ↔ first.ledger.journal between = []) ∧
      (t.edition = s.edition ↔ first.ledger.journal between = []) := by
  intro l first l'
  have hfirst : UpToDate l := upToDate_after before (upToDate_of_none rfl)
  have hsecond : UpToDate l' := upToDate_after between hfirst.snapshot.2.2
  obtain ⟨hsame, hlater⟩ := (since_run (since_snapshot hfirst) between).next
  -- another edition is another snapshot
  have hedition (he : l'.snapshot.1.edition = l.snapshot.1.edition) :
      first.ledger.journal between = [] := by
    by_contra hne
    exact Nat.ne_of_gt (hlater hne) he
  exact ⟨l.snapshot.1, l'.snapshot.1, rfl, rfl, hfirst.snapshot.1, hsecond.snapshot.1,
    Snapshot.shows_iff.mpr hfirst.snapshot.1, Snapshot.shows_iff.mpr hsecond.snapshot.1,
    ⟨fun h => hedition (congrArg Snapshot.edition h), hsame⟩,
    ⟨hedition, fun hnil => congrArg Snapshot.edition (hsame hnil)⟩⟩

/-- A checkpoint of one group of two subtasks is in progress. -/
def watchedRun : List Operation :=
  [.register 1 10 (.checkpoint .never) (.ofList [(⟨12, by decide⟩, 2)])]

/-- Both subtasks report, the one under the handle and the other under the id. -/
def watchedReports : List Operation :=
  [.acknowledge ⟨0⟩ ⟨12, by decide⟩ (.new 0 20), .route 1 ⟨12, by decide⟩ (.new 1 30)]

/-- Both reports are taken and the snapshot stays; after the next checkpoint there is another. -/
theorem watchedRun_shown_again :
    let first := ((new {}).after watchedRun).perform .snapshot
    let reported := first.ledger.after watchedReports
    let next := first.ledger.after (watchedReports ++ [.registerBare 2])
    (first.ledger.run watchedReports).map (·.answer) = [.taken true, .taken true] ∧
    ∃ s t u, first.answer = .snapshot s ∧ (reported.perform .snapshot).answer = .snapshot t ∧
      (next.perform .snapshot).answer = .snapshot u ∧ t = s ∧ s.counts.inProgress = 1 ∧
      u.edition ≠ s.edition ∧ u.counts.inProgress = 2 := by
  intro first reported next
  obtain ⟨s, t, hs, ht, -, -, hshows, -, hsame, -⟩ :=
    snapshot_same_iff {} watchedRun watchedReports
  obtain ⟨s', u, hs', hu, -, -, -, hshows', -, hedition⟩ :=
    snapshot_same_iff {} watchedRun (watchedReports ++ [.registerBare 2])
  obtain rfl : s = s' := Answer.snapshot.inj (hs.symm.trans hs')
  refine ⟨rfl, s, t, u, hs, ht, hu, hsame.mpr rfl, hshows.counts ▸ rfl, fun he => ?_,
    hshows'.counts ▸ rfl⟩
  have hnil := hedition.mp he
  cases hnil

end Ledger

end CheckpointLedger
