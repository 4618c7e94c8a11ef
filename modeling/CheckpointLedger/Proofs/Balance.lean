import CheckpointLedger.Proofs.InProgress

/-!
# The counts balance

The counters are kept beside the map of checkpoints in progress, and no operation
looks at both: a report of an end is accepted because of the map, and moves the
counters on the strength of that. If the two ever drifted apart, `Counts` would
hide it, since it drops an end that finds nothing in progress.

They do not drift. `Journal.counts` says what the counters have to read, from what
was accepted alone; that they do (`counts_run`) is carried along with `Tracked`,
which ties the map to the same journal. An end that is accepted is that of a
checkpoint in the map, so the registrations outnumber the conclusions, and the
counter of those in progress is not zero.
-/

namespace CheckpointLedger

namespace Journal

/-- What the counters read after a journal. -/
def counts (j : Journal) : Counts where
  restored := j.restores
  total := j.registrations.length + j.untriggered
  inProgress := j.registrations.length - j.conclusions.length
  completed := j.completions.length
  failed := j.failures.length + j.untriggered

/-- What one more posting makes of it. -/
theorem counts_concat (j : Journal) (p : Posting) :
    counts (j ++ [p]) =
      ⟨j.restores + restores [p],
        j.registrations.length + (registrations [p]).length +
          (j.untriggered + untriggered [p]),
        j.registrations.length + (registrations [p]).length -
          (j.conclusions.length + (conclusions [p]).length),
        j.completions.length + (completions [p]).length,
        j.failures.length + (failures [p]).length + (j.untriggered + untriggered [p])⟩ := by
  unfold counts
  rw [restores_append, registrations_append, untriggered_append, conclusions_append,
    completions_append, failures_append]
  simp only [List.length_append]

end Journal

namespace Counts

theorem addCompleted_of_pos {c : Counts} (h : c.inProgress ≠ 0) :
    c.addCompleted =
      { c with inProgress := c.inProgress - 1, completed := c.completed + 1 } := by
  rw [addCompleted, leaveInProgress?, if_neg h]

theorem addFailed_of_pos {c : Counts} (h : c.inProgress ≠ 0) :
    c.addFailed = { c with inProgress := c.inProgress - 1, failed := c.failed + 1 } := by
  rw [addFailed, leaveInProgress?, if_neg h]

theorem addCompleted_total (c : Counts) : c.addCompleted.total = c.total := by
  unfold addCompleted leaveInProgress?
  by_cases h : c.inProgress = 0
  · rw [if_pos h]
  · rw [if_neg h]

theorem addCompleted_restored (c : Counts) : c.addCompleted.restored = c.restored := by
  unfold addCompleted leaveInProgress?
  by_cases h : c.inProgress = 0
  · rw [if_pos h]
  · rw [if_neg h]

theorem addFailed_total (c : Counts) : c.addFailed.total = c.total := by
  unfold addFailed leaveInProgress?
  by_cases h : c.inProgress = 0
  · rw [if_pos h]
  · rw [if_neg h]

theorem addFailed_restored (c : Counts) : c.addFailed.restored = c.restored := by
  unfold addFailed leaveInProgress?
  by_cases h : c.inProgress = 0
  · rw [if_pos h]
  · rw [if_neg h]

end Counts

namespace Ledger

theorem settle_counts (l : Ledger) (g : Generation) : (l.settle g).1.counts = l.counts := by
  rw [settle_fst]

/-- Where an end is accepted, there are more registrations than conclusions. -/
theorem Tracked.conclusions_lt {j : Journal} {l : Ledger} (h : Tracked j l) {id : Nat}
    {handle : Handle} (hopen : l.inProgress? id = some handle) :
    j.conclusions.length < j.registrations.length := by
  have hmem := (OrderedMap.find?_eq_some_iff l.inProgress id handle).mp hopen
  have hpos : 0 < l.inProgress.size := List.length_pos_of_mem hmem
  have := h.size_inProgress
  omega

theorem counts_conclude {j : Journal} {l : Ledger} (ht : Tracked j l)
    (h : l.counts = j.counts) {c : Conclusion} {handle : Handle}
    (hopen : l.inProgress? c.id = some handle) :
    (l.book c).counts = Journal.counts (j ++ [.concluded c]) := by
  have hlt := ht.conclusions_lt hopen
  -- the guard in the counters is passed, which is what the map was consulted for
  have hpos : l.counts.inProgress ≠ 0 := by
    rw [h]
    show j.registrations.length - j.conclusions.length ≠ 0
    omega
  rw [Journal.counts_concat]
  cases c with
  | completed c =>
    show l.counts.addCompleted = _
    rw [Counts.addCompleted_of_pos hpos, h]
    rfl
  | failed f =>
    show l.counts.addFailed = _
    rw [Counts.addFailed_of_pos hpos, h]
    show Counts.mk _ _ _ _ _ = Counts.mk _ _ _ _ _
    congr 1
    show j.failures.length + j.untriggered + 1 = j.failures.length + 1 + (j.untriggered + 0)
    omega

/-- **The counters follow the journal.** -/
theorem counts_turn {j : Journal} {l l' : Ledger} {p : Option Posting} {effects : List Effect}
    (hturn : Turn l p effects l') (ht : Tracked j l) (h : l.counts = j.counts) :
    l'.counts = Journal.counts (j ++ p.toList) := by
  -- the difference of the two is a true one, so one more on the left is one more
  have hle : j.conclusions.length ≤ j.registrations.length := by
    have := ht.size_inProgress
    omega
  cases hturn with
  | quiet _ =>
    show l.counts = Journal.counts (j ++ [])
    rw [h, List.append_nil]
  | registered _ =>
    show l.counts.addInProgress = Journal.counts (j ++ [_])
    rw [Journal.counts_concat, h]
    show Counts.mk _ _ _ _ _ = Counts.mk _ _ _ _ _
    congr 1
    · show j.registrations.length + j.untriggered + 1 =
        j.registrations.length + 1 + (j.untriggered + 0)
      omega
    · show j.registrations.length - j.conclusions.length + 1 =
        j.registrations.length + 1 - (j.conclusions.length + 0)
      omega
  | concluded hopen => exact counts_conclude ht h hopen
  | untriggered hl =>
    rw [hl]
    show l.counts.addUntriggered = Journal.counts (j ++ [_])
    rw [Journal.counts_concat, h]
    rfl
  | began =>
    show l.counts = Journal.counts (j ++ [_])
    rw [Journal.counts_concat, h]
    rfl
  | measured _ _ =>
    rw [settle_counts]
    show l.counts = Journal.counts (j ++ [_])
    rw [Journal.counts_concat, h]
    rfl
  | restored _ _ hl =>
    rw [settle_counts, hl]
    show l.counts.addRestored = Journal.counts (j ++ [_])
    rw [Journal.counts_concat, h]
    rfl

theorem counts_run (config : Config) (ops : List Operation) :
    ((new config).after ops).counts = ((new config).journal ops).counts := by
  refine (journal_induction (motive := fun j l => Tracked j l ∧ l.counts = j.counts) _
    ⟨tracked_new config, rfl⟩ ?_ ops).2
  intro past l p effects l' hturn h
  exact ⟨tracked_turn hturn h.1, counts_turn hturn h.1 h.2⟩

/-! ## No counter outgrows the run -/

theorem book_total (l : Ledger) (c : Conclusion) : (l.book c).counts.total = l.counts.total := by
  cases c with
  | completed c => exact l.counts.addCompleted_total
  | failed f => exact l.counts.addFailed_total

theorem book_restored (l : Ledger) (c : Conclusion) :
    (l.book c).counts.restored = l.counts.restored := by
  cases c with
  | completed c => exact l.counts.addCompleted_restored
  | failed f => exact l.counts.addFailed_restored

theorem turn_counts_le {l l' : Ledger} {p : Option Posting} {effects : List Effect}
    (hturn : Turn l p effects l') :
    l'.counts.total ≤ l.counts.total + 1 ∧ l'.counts.restored ≤ l.counts.restored + 1 := by
  cases hturn with
  | quiet _ => exact ⟨Nat.le_succ _, Nat.le_succ _⟩
  | registered _ => exact ⟨Nat.le_refl _, Nat.le_succ _⟩
  | concluded _ =>
    rw [book_total, book_restored]
    exact ⟨Nat.le_succ _, Nat.le_succ _⟩
  | untriggered hl =>
    rw [hl]
    exact ⟨Nat.le_refl _, Nat.le_succ _⟩
  | began => exact ⟨Nat.le_succ _, Nat.le_succ _⟩
  | measured _ _ =>
    rw [settle_counts]
    exact ⟨Nat.le_succ _, Nat.le_succ _⟩
  | restored _ _ hl =>
    rw [settle_counts, hl]
    exact ⟨Nat.le_succ _, Nat.le_refl _⟩

theorem after_counts_le (ops : List Operation) (l : Ledger) :
    (l.after ops).counts.total ≤ l.counts.total + ops.length ∧
      (l.after ops).counts.restored ≤ l.counts.restored + ops.length := by
  induction ops generalizing l with
  | nil => exact ⟨Nat.le_refl _, Nat.le_refl _⟩
  | cons o rest ih =>
    have hfirst := turn_counts_le (turn l o)
    have hrest := ih (l.perform o).ledger
    show ((l.perform o).ledger.after rest).counts.total ≤ _ ∧
      ((l.perform o).ledger.after rest).counts.restored ≤ _
    rw [List.length_cons]
    omega

/-! ## The warning that never comes -/

theorem refusalNotice_ne (id : Nat) (vertex : VertexId) (report : Report) (r : Refusal) :
    Effect.notice .unbalanced ∉ refusalNotice id vertex report r := by
  cases r <;> simp [refusalNotice]

theorem acknowledge_ne (l : Ledger) (handle : Handle) (vertex : VertexId) (report : Report) :
    Effect.notice .unbalanced ∉ (l.acknowledge handle vertex report).effects := by
  unfold acknowledge
  split
  · exact List.not_mem_nil
  · split
    · exact List.not_mem_nil
    · exact refusalNotice_ne _ _ _ _

theorem conclude_ne {α : Type} (l : Ledger) (handle : Handle)
    (ending : Pending → Except Error (α × Pending)) :
    Effect.notice .unbalanced ∉ (l.conclude handle ending).effects := by
  unfold conclude
  split
  · exact List.not_mem_nil
  · split <;> simp

theorem settled_ne (l : Ledger × Option Initialization) :
    Effect.notice .unbalanced ∉ settled l := by
  unfold settled
  split <;> simp [tell]

theorem discardNotice_ne (l : Ledger) : Effect.notice .unbalanced ∉ l.discardNotice := by
  unfold discardNotice
  split <;> simp

theorem balanceNotice_of_mem {l : Ledger} {rest : List Effect}
    (hrest : Effect.notice .unbalanced ∉ rest)
    (h : Effect.notice .unbalanced ∈ l.balanceNotice ++ rest) : l.counts.inProgress = 0 := by
  rcases List.mem_append.mp h with h | h
  · unfold balanceNotice at h
    by_cases hzero : l.counts.inProgress = 0
    · exact hzero
    · rw [if_neg hzero] at h
      exact absurd h List.not_mem_nil
  · exact absurd h hrest

/--
The warning comes with the end of a checkpoint in progress, and only while none is
counted in progress.
-/
theorem unbalanced_of_mem {l : Ledger} {o : Operation}
    (h : Effect.notice .unbalanced ∈ (l.perform o).effects) :
    l.counts.inProgress = 0 ∧ ∃ id handle, l.inProgress? id = some handle := by
  cases o with
  | reportCompleted c =>
    replace h : Effect.notice .unbalanced ∈ (l.reportCompleted c).effects := h
    unfold reportCompleted at h
    split at h
    · simp at h
    · rename_i handle hopen
      exact ⟨balanceNotice_of_mem (by simp) h, c.id, handle, hopen⟩
  | reportFailed f =>
    replace h : Effect.notice .unbalanced ∈ (l.reportFailed f).effects := h
    unfold reportFailed at h
    split at h
    · simp at h
    · rename_i handle hopen
      exact ⟨balanceNotice_of_mem (by simp) h, f.id, handle, hopen⟩
  | register id trigger properties groups =>
    exfalso
    replace h : Effect.notice .unbalanced ∈ (l.register id trigger properties groups).effects := h
    unfold register at h
    split at h <;> simp at h
  | acknowledge handle vertex report => exact absurd h (acknowledge_ne l handle vertex report)
  | route id vertex report =>
    exfalso
    replace h : Effect.notice .unbalanced ∈ (l.route id vertex report).effects := h
    unfold route at h
    split at h
    · simp at h
    · exact acknowledge_ne l _ vertex report h
  | complete handle pointer metadataSize => exact absurd h (conclude_ne l handle _)
  | fail handle failureTime message => exact absurd h (conclude_ne l handle _)
  | reportUntriggered =>
    replace h : Effect.notice .unbalanced ∈ l.reportUntriggered.effects := h
    simp [reportUntriggered] at h
  | beginInitialization attempts start =>
    exfalso
    replace h : Effect.notice .unbalanced ∈ (l.beginInitialization attempts start).effects := h
    rcases List.mem_append.mp h with h | h
    · exact discardNotice_ne l h
    · simp at h
  | reportMetrics attempt metrics =>
    exfalso
    replace h : Effect.notice .unbalanced ∈ (l.reportMetrics attempt metrics).effects := h
    unfold reportMetrics at h
    split at h
    · simp at h
    · exact settled_ne _ h
  | reportRestored id properties path stateSize =>
    exfalso
    replace h : Effect.notice .unbalanced ∈
        (l.reportRestored id properties path stateSize).effects := h
    unfold reportRestored at h
    split at h
    · simp at h
    · rcases List.mem_cons.mp h with h | h
      · simp at h
      · exact settled_ne _ h
  | snapshot => exact absurd h List.not_mem_nil

/-! ## The whole account -/

/--
**The counts balance, and each of them counts what it says.** After any run the
total is that of the three others, those in progress are the ones in the map, and
every counter is what was accepted of its kind. None outgrows the number of
operations. An end that is accepted always finds a checkpoint counted in progress,
so the warning that there is none is never given.
-/
theorem counts_balance (config : Config) (ops : List Operation) :
    let j := (new config).journal ops
    let l := (new config).after ops
    l.counts.total = l.counts.inProgress + l.counts.completed + l.counts.failed ∧
    l.counts.inProgress = l.inProgress.size ∧
    l.counts.inProgress + j.conclusions.length = j.registrations.length ∧
    l.counts.completed = j.completions.length ∧
    l.counts.failed = j.failures.length + j.untriggered ∧
    l.counts.restored = j.restores ∧
    (l.counts.total ≤ ops.length ∧ l.counts.restored ≤ ops.length) ∧
    (∀ o c, l.posting? o = some (.concluded c) → l.counts.leaveInProgress?.isSome) ∧
    ∀ o, Effect.notice .unbalanced ∉ (l.perform o).effects := by
  intro j l
  have ht : Tracked j l := tracked_run config ops
  have hcounts : l.counts = j.counts := counts_run config ops
  have hsize := ht.size_inProgress
  have hkinds := j.length_conclusions
  have hin : l.counts.inProgress = j.registrations.length - j.conclusions.length := by
    rw [hcounts]
    rfl
  have hle := after_counts_le ops (new config)
  rw [show (new config).counts.total = 0 from rfl, show (new config).counts.restored = 0 from rfl,
    Nat.zero_add] at hle
  -- what is open is counted: this is all the last two parts need
  have hpos : ∀ id handle, l.inProgress? id = some handle → l.counts.inProgress ≠ 0 := by
    intro id handle hopen
    have := ht.conclusions_lt hopen
    omega
  refine ⟨?_, by omega, by omega, by rw [hcounts]; rfl, by rw [hcounts]; rfl,
    by rw [hcounts]; rfl, hle, ?_, ?_⟩
  · rw [hcounts]
    show j.registrations.length + j.untriggered =
      j.registrations.length - j.conclusions.length + j.completions.length +
        (j.failures.length + j.untriggered)
    omega
  · intro o c hposted
    have hturn := turn l o
    rw [hposted] at hturn
    generalize (l.perform o).ledger = l' at hturn
    generalize (l.perform o).outward = effects at hturn
    cases hturn with
    | concluded hopen =>
      rw [Counts.leaveInProgress?, if_neg (hpos _ _ hopen)]
      rfl
  · intro o h
    obtain ⟨hzero, id, handle, hopen⟩ := unbalanced_of_mem h
    exact hpos id handle hopen hzero

/-- After one registration its end finds a checkpoint counted in progress. -/
theorem counts_balance_bare :
    ((new {}).after [.registerBare 1]).counts = ⟨0, 1, 1, 0, 0⟩ ∧
    ((new {}).after [.registerBare 1]).posting? (.reportCompleted (.bare 1)) =
      some (.concluded (.completed (.bare 1))) ∧
    ((new {}).after [.registerBare 1]).counts.leaveInProgress?.isSome :=
  ⟨rfl, rfl, (counts_balance {} [.registerBare 1]).2.2.2.2.2.2.2.1
    (.reportCompleted (.bare 1)) (.completed (.bare 1)) rfl⟩

end Ledger

end CheckpointLedger
