import CheckpointLedger.Proofs.Balance
import CheckpointLedger.Proofs.Figures
import Mathlib.Data.List.Induction

/-!
# Reports in another order

Checkpoints are registered in the order of their ids; other than that the reports
of a job's checkpoints may come in any order, as long as each of them is accepted.
The same reports then leave **the same ledger**, whatever the order: which entries
were evicted by the time an end came in, or what was the latest record then, has
left no trace.

No two operations are exchanged to see this. Each part of the ledger was described
by the journal alone: the checkpoints in progress (`Tracked`), the entries of the
history (`Retained`), the counters (`Journal.counts`), the latest records and the
summary (`Figured`). What these descriptions ask of the journal does not depend on
the order of the conclusions. Nor can the registrations come in a different order,
since ids have to grow, and so handles and records are the same as well.
-/

namespace CheckpointLedger

/-! ## Reports of checkpoints -/

namespace Operation

/-- Whether a checkpoint is registered, or reported to have ended. -/
def isReport : Operation → Bool
  | register _ _ _ _ => true
  | reportCompleted _ => true
  | reportFailed _ => true
  | reportUntriggered => true
  | _ => false

/-- The record of the checkpoint that is registered. -/
def record? : Operation → Option Pending
  | register id trigger properties groups => some (.new id trigger properties groups)
  | _ => none

/-- The end that is reported. -/
def conclusion? : Operation → Option Conclusion
  | reportCompleted c => some (.completed c)
  | reportFailed f => some (.failed f)
  | _ => none

/-- Whether this is a checkpoint that failed before it was in progress. -/
def isUntriggered : Operation → Bool
  | reportUntriggered => true
  | _ => false

end Operation

namespace Answer

/-- Whether an operation was refused. -/
def isRefused : Answer → Bool
  | refused _ => true
  | _ => false

theorem ok_of_accepted {α : Type} {f : α → Answer} {x : Except Error α}
    (h : (ofExcept f x).isRefused = false) : ∃ a, x = .ok a := by
  cases x with
  | ok a => exact ⟨a, rfl⟩
  | error e => exact absurd h.symm Bool.false_ne_true

end Answer

namespace Ledger

/-- No operation of a list is refused. -/
def Accepts (l : Ledger) (ops : List Operation) : Prop :=
  ∀ s ∈ l.run ops, s.answer.isRefused = false

instance (l : Ledger) (ops : List Operation) : Decidable (l.Accepts ops) :=
  inferInstanceAs (Decidable (∀ s ∈ l.run ops, s.answer.isRefused = false))

theorem accepts_concat {l : Ledger} {ops : List Operation} {o : Operation} :
    l.Accepts (ops ++ [o]) ↔
      l.Accepts ops ∧ ((l.after ops).perform o).answer.isRefused = false := by
  unfold Accepts
  rw [run_concat]
  constructor
  · intro h
    exact ⟨fun s hs => h s (List.mem_append_left _ hs),
      h _ (List.mem_append_right _ List.mem_cons_self)⟩
  · rintro ⟨hops, ho⟩ s hs
    rcases List.mem_append.mp hs with hs | hs
    · exact hops s hs
    · rw [List.mem_singleton.mp hs]
      exact ho

/-- What an accepted report is posted as, and the ledger it leaves. -/
inductive Reported (l : Ledger) : Operation → Posting → Ledger → Prop where
  | registered {id trigger : Nat} {properties : Properties} {groups : OrderedMap VertexId Nat}
      {l' : Ledger} (h : l' = l.enter (.new id trigger properties groups)) :
      Reported l (.register id trigger properties groups)
        (.registered (.new id trigger properties groups) ⟨l.records.length⟩) l'
  | completed {c : Completed} {l' : Ledger} (h : l' = l.bookCompleted c) :
      Reported l (.reportCompleted c) (.concluded (.completed c)) l'
  | failed {f : Failed} {l' : Ledger} (h : l' = l.bookFailed f) :
      Reported l (.reportFailed f) (.concluded (.failed f)) l'
  | untriggered {l' : Ledger} (h : l' = { l with counts := l.counts.addUntriggered }.touch) :
      Reported l .reportUntriggered .untriggered l'

theorem register_of_ok {l : Ledger} {id trigger : Nat} {properties : Properties}
    {groups : OrderedMap VertexId Nat} {handle : Handle}
    (h : (l.register id trigger properties groups).answer = .ok handle) :
    handle = ⟨l.records.length⟩ ∧
      (l.register id trigger properties groups).ledger =
        l.enter (.new id trigger properties groups) := by
  unfold register at h ⊢
  split at h
  · exact absurd h (by simp)
  · exact ⟨(Except.ok.inj h).symm, rfl⟩

theorem reportCompleted_of_ok {l : Ledger} {c : Completed}
    (h : (l.reportCompleted c).answer = .ok ()) :
    (l.reportCompleted c).ledger = l.bookCompleted c := by
  unfold reportCompleted at h ⊢
  split at h
  · exact absurd h (by simp)
  · rfl

theorem reportFailed_of_ok {l : Ledger} {f : Failed} (h : (l.reportFailed f).answer = .ok ()) :
    (l.reportFailed f).ledger = l.bookFailed f := by
  unfold reportFailed at h ⊢
  split at h
  · exact absurd h (by simp)
  · rfl

/-- Every report that is not refused is posted. -/
theorem reported {l : Ledger} {o : Operation} (ho : o.isReport = true)
    (haccepted : (l.perform o).answer.isRefused = false) :
    ∃ p, l.posting? o = some p ∧ Reported l o p (l.perform o).ledger := by
  cases o with
  | register id trigger properties groups =>
    obtain ⟨handle, hok⟩ := Answer.ok_of_accepted haccepted
    obtain ⟨rfl, hledger⟩ := register_of_ok hok
    exact ⟨_, congrArg (fun a => Operation.posting? _ (.ofExcept .registered a)) hok,
      .registered hledger⟩
  | reportCompleted c =>
    obtain ⟨_, hok⟩ := Answer.ok_of_accepted haccepted
    exact ⟨_, congrArg (fun a => Operation.posting? _ (.ofExcept (fun _ => .done) a)) hok,
      .completed (reportCompleted_of_ok hok)⟩
  | reportFailed f =>
    obtain ⟨_, hok⟩ := Answer.ok_of_accepted haccepted
    exact ⟨_, congrArg (fun a => Operation.posting? _ (.ofExcept (fun _ => .done) a)) hok,
      .failed (reportFailed_of_ok hok)⟩
  | reportUntriggered => exact ⟨_, rfl, .untriggered rfl⟩
  | _ => exact absurd ho Bool.false_ne_true

/-! ## What the reports say of the journal -/

/-- The registrations that hand out the given records, one after the other. -/
def registrationsOf (records : List Pending) : List (Nat × Handle) :=
  records.zipIdx.map (fun r => (r.1.id, ⟨r.2⟩))

theorem registrationsOf_concat (records : List Pending) (record : Pending) :
    registrationsOf (records ++ [record]) =
      registrationsOf records ++ [(record.id, ⟨records.length⟩)] := by
  rw [registrationsOf, List.zipIdx_append, List.map_append, Nat.zero_add]
  rfl

theorem map_fst_registrationsOf (records : List Pending) :
    (registrationsOf records).map Prod.fst = records.map (·.id) := by
  rw [registrationsOf, List.map_map]
  show records.zipIdx.map ((·.id) ∘ Prod.fst) = _
  rw [← List.map_map, List.zipIdx_map_fst]

/-- What accepted reports have to do with the journal and the ledger. -/
structure Accounted (config : Config) (ops : List Operation) (j : Journal) (l : Ledger) :
    Prop where
  /-- Every registration was handed the next record. -/
  registrations : j.registrations = registrationsOf (ops.filterMap Operation.record?)
  /-- Every end that was reported was accepted. -/
  conclusions : j.conclusions = ops.filterMap Operation.conclusion?
  /-- Every other failure was counted. -/
  untriggered : j.untriggered = ops.countP Operation.isUntriggered
  /-- Nothing was restored. -/
  restores : j.restores = 0
  /-- The records are as they were handed out. -/
  records : l.records = ops.filterMap Operation.record?
  /-- What is not about checkpoints is as at first. -/
  others : l = { new config with
    records := l.records
    counts := l.counts
    summary := l.summary
    history := l.history
    inProgress := l.inProgress
    lastId := l.lastId
    latestCompleted := l.latestCompleted }

theorem accounted_concat {config : Config} {ops : List Operation} {j : Journal} {l l' : Ledger}
    {o : Operation} {p : Posting} (h : Accounted config ops j l) (ho : Reported l o p l') :
    Accounted config (ops ++ [o]) (j ++ [p]) l' := by
  have hsame : (ops ++ [o]).filterMap Operation.record? =
      ops.filterMap Operation.record? ++ o.record?.toList := by
    rw [List.filterMap_append]
    cases ho <;> rfl
  have hnone {xs : List (Nat × Handle)} {rs : List Pending} (hxs : xs = registrationsOf rs) :
      xs ++ [] = registrationsOf (rs ++ []) := by
    rw [List.append_nil, List.append_nil, hxs]
  refine ⟨?_, ?_, ?_, ?_, ?_, ?_⟩
  · rw [Journal.registrations_append, hsame]
    cases ho with
    | registered _ =>
      rw [h.registrations, h.records]
      exact (registrationsOf_concat _ _).symm
    | completed _ => exact hnone h.registrations
    | failed _ => exact hnone h.registrations
    | untriggered _ => exact hnone h.registrations
  · rw [Journal.conclusions_append, h.conclusions, List.filterMap_append]
    cases ho <;> rfl
  · rw [Journal.untriggered_append, h.untriggered, List.countP_append]
    cases ho <;> rfl
  · rw [Journal.restores_append, h.restores]
    cases ho <;> rfl
  · rw [hsame, ← h.records]
    cases ho with
    | registered hl => rw [hl]; rfl
    | completed hl => rw [hl]; exact (List.append_nil _).symm
    | failed hl => rw [hl]; exact (List.append_nil _).symm
    | untriggered hl => rw [hl]; exact (List.append_nil _).symm
  · -- none of the reports does anything to the restores, and all of them touch the ledger
    cases ho with
    | registered hl => rw [hl, h.others]; rfl
    | completed hl => rw [hl, h.others]; rfl
    | failed hl => rw [hl, h.others]; rfl
    | untriggered hl => rw [hl, h.others]; rfl

theorem accounted_run {config : Config} {ops : List Operation}
    (hreports : ∀ o ∈ ops, o.isReport = true) (haccepts : (new config).Accepts ops) :
    Accounted config ops ((new config).journal ops) ((new config).after ops) := by
  induction ops using List.reverseRecOn with
  | nil => exact ⟨rfl, rfl, rfl, rfl, rfl, rfl⟩
  | append_singleton ops o ih =>
    obtain ⟨hops, ho⟩ := accepts_concat.mp haccepts
    obtain ⟨p, hp, hreported⟩ :=
      reported (hreports o (List.mem_append_right _ List.mem_cons_self)) ho
    have hbefore := ih (fun o ho => hreports o (List.mem_append_left _ ho)) hops
    rw [journal_concat, after_concat, hp]
    exact accounted_concat hbefore hreported

/-! ## The order does not matter -/

/-- Two journals with the same registrations, and otherwise the same in some order. -/
structure SameReports (j k : Journal) : Prop where
  /-- The same checkpoints were registered, in the same order. -/
  registrations : j.registrations = k.registrations
  /-- They ended in the same way, in whatever order. -/
  conclusions : j.conclusions.Perm k.conclusions
  /-- As many other checkpoints failed. -/
  untriggered : j.untriggered = k.untriggered
  /-- As many restores were reported. -/
  restores : j.restores = k.restores

namespace SameReports

variable {j k : Journal}

theorem completions (h : SameReports j k) : j.completions.Perm k.completions :=
  h.conclusions.filterMap _

theorem failures (h : SameReports j k) : j.failures.Perm k.failures :=
  h.conclusions.filterMap _

theorem mem_concludedIds (h : SameReports j k) (id : Nat) :
    id ∈ j.concludedIds ↔ id ∈ k.concludedIds := (h.conclusions.map _).mem_iff

theorem counts (h : SameReports j k) : j.counts = k.counts := by
  rw [Journal.counts, Journal.counts, h.registrations, h.conclusions.length_eq,
    h.completions.length_eq, h.failures.length_eq, h.untriggered, h.restores]

/-- The same checkpoints are in progress. -/
theorem inProgress (h : SameReports j k) {l l' : Ledger} (hj : Tracked j l) (hk : Tracked k l') :
    l.inProgress = l'.inProgress := by
  refine OrderedMap.eq_of_entries ?_
  rw [hj.inProgress, hk.inProgress, h.registrations]
  refine List.filter_congr (fun r _ => ?_)
  rw [decide_eq_decide, h.mem_concludedIds]

/-- Each registered checkpoint is shown in the same way. -/
theorem entryOf (h : SameReports j k) (honce : j.concludedIds.Nodup) : j.entryOf = k.entryOf := by
  funext r
  -- `find?` takes the first, which would be a matter of order if there were two
  have hfind : j.conclusions.find? (·.id == r.1) = k.conclusions.find? (·.id == r.1) := by
    have hfilter := h.conclusions.filter (·.id == r.1)
    cases hj : j.conclusions.find? (·.id == r.1) with
    | none =>
      rw [← List.head?_filter, List.head?_eq_none_iff] at hj
      rw [hj] at hfilter
      rw [← List.head?_filter, hfilter.symm.eq_nil]
      rfl
    | some c =>
      -- there is just one conclusion of that id, and one alone has no order
      rw [filter_of_find? honce hj] at hfilter
      rw [← List.head?_filter, hfilter.symm.eq_singleton]
      rfl
  rw [Journal.entryOf, Journal.entryOf, hfind]

/-- The newest is the same, of all that completed or of those of one kind. -/
theorem newest_completion (h : SameReports j k) (honce : j.concludedIds.Nodup)
    (p : Completed → Bool) :
    newestOf (·.id) (j.completions.filter p) = newestOf (·.id) (k.completions.filter p) :=
  newestOf_perm _ (h.completions.filter p) (Journal.nodup_filter_completions honce p)

end SameReports

/-- All that the journal says of a ledger, restores aside. -/
structure Booked (room : Nat) (j : Journal) (l : Ledger) : Prop where
  /-- What is in progress. -/
  tracked : Tracked j l
  /-- What is counted. -/
  counts : l.counts = j.counts
  /-- What the history shows. -/
  retained : Retained room j l
  /-- What was the latest, and what it adds up to. -/
  figured : Figured j l

theorem booked_run (config : Config) (ops : List Operation) :
    Booked config.historySize ((new config).journal ops) ((new config).after ops) :=
  ⟨tracked_run config ops, counts_run config ops, retained_run config ops, figured_run config ops⟩

/-- The books of two ledgers agree as far as they are about checkpoints. -/
structure SameBooks (l l' : Ledger) : Prop where
  counts : l.counts = l'.counts
  summary : l.summary = l'.summary
  history : l.history = l'.history
  inProgress : l.inProgress = l'.inProgress
  lastId : l.lastId = l'.lastId
  latestCompleted : l.latestCompleted = l'.latestCompleted

theorem history_eq {h h' : History} (hcapacity : h.capacity = h'.capacity)
    (hentries : h.entries = h'.entries) (hcheckpoint : h.latestCompleted = h'.latestCompleted)
    (hsavepoint : h.latestSavepoint = h'.latestSavepoint)
    (hfailed : h.latestFailed = h'.latestFailed) : h = h' := by
  cases h
  cases h'
  rw [History.mk.injEq]
  exact ⟨hcapacity, hentries, hcheckpoint, hsavepoint, hfailed⟩

/-- **The same reports make the same books.** -/
theorem SameReports.books {j k : Journal} (h : SameReports j k) {room : Nat} {l l' : Ledger}
    (hj : Booked room j l) (hk : Booked room k l') : SameBooks l l' := by
  have honce := hj.tracked.once
  refine ⟨?_, ?_, ?_, h.inProgress hj.tracked hk.tracked, ?_, ?_⟩
  · rw [hj.counts, hk.counts, h.counts]
  · rw [hj.figured.summary, hk.figured.summary, Summary.ofList_perm h.completions]
  · refine history_eq ?_ ?_ ?_ ?_ ?_
    · rw [hj.retained.capacity, hk.retained.capacity]
    · -- the same registrations are kept, and each is shown by its own end
      rw [hj.retained.entries, hk.retained.entries, h.registrations, h.entryOf honce]
    · rw [hj.figured.checkpoint, hk.figured.checkpoint]
      exact h.newest_completion honce _
    · rw [hj.figured.savepoint, hk.figured.savepoint]
      exact h.newest_completion honce _
    · rw [hj.figured.failed, hk.figured.failed]
      exact newestOf_perm _ h.failures (Journal.nodup_failures honce)
  · rw [hj.tracked.lastId, hk.tracked.lastId, h.registrations]
  · rw [hj.figured.latest, hk.figured.latest]
    exact newestOf_perm _ h.completions (Journal.nodup_completions honce)

/-- Records of growing ids can be registered in one order only. -/
theorem records_eq_of_perm {rs ss : List Pending} (hperm : rs.Perm ss)
    (hr : (registrationsOf rs).Pairwise (fun a b => a.1 < b.1))
    (hs : (registrationsOf ss).Pairwise (fun a b => a.1 < b.1)) : rs = ss := by
  have hgrow {ts : List Pending} (ht : (registrationsOf ts).Pairwise (fun a b => a.1 < b.1)) :
      ts.Pairwise (fun a b => a.id < b.id) := by
    have hids : ((registrationsOf ts).map Prod.fst).Pairwise (· < ·) := List.pairwise_map.mpr ht
    rw [map_fst_registrationsOf] at hids
    exact List.pairwise_map.mp hids
  refine List.Perm.eq_of_pairwise (fun a b _ _ hab hba => ?_) (hgrow hr) (hgrow hs) hperm
  exact absurd hba (Nat.lt_asymm hab)

/--
**The order of the reports does not matter.** Two runs that do the same reports of
checkpoints in different orders, none of them refused, leave the same ledger: the
same counts and summary, the same checkpoints in progress under the same handles
and with the same records, the same history with its latest records. So every gauge
reads the same as well.
-/
theorem after_eq_of_perm (config : Config) {first second : List Operation}
    (hperm : first.Perm second) (hreports : ∀ o ∈ first, o.isReport = true)
    (hfirst : (new config).Accepts first) (hsecond : (new config).Accepts second) :
    (new config).after first = (new config).after second := by
  have h₁ := accounted_run hreports hfirst
  have h₂ := accounted_run (fun o ho => hreports o (hperm.mem_iff.mpr ho)) hsecond
  have b₁ := booked_run config first
  have b₂ := booked_run config second
  -- ids have to grow, so the registrations stand in the same order in both runs
  have hrecords : first.filterMap Operation.record? = second.filterMap Operation.record? :=
    records_eq_of_perm (hperm.filterMap _) (h₁.registrations ▸ b₁.tracked.increasing)
      (h₂.registrations ▸ b₂.tracked.increasing)
  have hsame : SameReports ((new config).journal first) ((new config).journal second) := by
    refine ⟨?_, ?_, ?_, ?_⟩
    · rw [h₁.registrations, h₂.registrations, hrecords]
    · rw [h₁.conclusions, h₂.conclusions]
      exact hperm.filterMap _
    · rw [h₁.untriggered, h₂.untriggered, hperm.countP_eq]
    · rw [h₁.restores, h₂.restores]
  have hbooks := hsame.books b₁ b₂
  have hkept : ((new config).after first).records = ((new config).after second).records := by
    rw [h₁.records, h₂.records, hrecords]
  rw [h₁.others, h₂.others, hkept, hbooks.counts, hbooks.summary, hbooks.history,
    hbooks.inProgress, hbooks.lastId, hbooks.latestCompleted]

/-- The first checkpoint ends before the second is registered. -/
def orderlyRun : List Operation :=
  [.registerBare 1, .reportCompleted (.bare 1), .registerBare 2, .reportCompleted (.bare 2)]

/-- The first ends last, when there is no room for it any more. -/
def crossedRun : List Operation :=
  [.registerBare 1, .registerBare 2, .reportCompleted (.bare 2), .reportCompleted (.bare 1)]

theorem after_crossedRun :
    (new ⟨1⟩).Accepts orderlyRun ∧ (new ⟨1⟩).Accepts crossedRun ∧
    (new ⟨1⟩).after orderlyRun = (new ⟨1⟩).after crossedRun := by
  have hperm : orderlyRun.Perm crossedRun :=
    .cons _ ((List.Perm.swap _ _ _).trans (.cons _ (.swap _ _ _)))
  have horderly : (new ⟨1⟩).Accepts orderlyRun := by decide
  have hcrossed : (new ⟨1⟩).Accepts crossedRun := by decide
  exact ⟨horderly, hcrossed, after_eq_of_perm ⟨1⟩ hperm (by decide) horderly hcrossed⟩

end Ledger

end CheckpointLedger
