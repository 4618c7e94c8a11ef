import CheckpointLedger.Proofs.Arrivals
import CheckpointLedger.Proofs.Results
import CheckpointLedger.Proofs.Retention
import CheckpointLedger.Proofs.Snapshots
import CheckpointLedger.View

/-!
# What an old snapshot shows

A snapshot is never changed, but what it shows may: an entry of a checkpoint that was in
progress holds a handle, and whoever looks at the snapshot looks up the record as it is
by then. Others share this record, the ledger and all who hold the handle, so what they
do to it is seen in every snapshot that shows it.

All they can do is bring it forward. Since its registration a record has taken a list of
reports (`Kept`), and of this list what was taken up to an earlier moment is the
beginning. The figures are those of the list (`Pending.Holds.total_eq_taken`), however
the reports are spread over groups and slots, so they are **monotone in the list**
(`Kept.advanced`); and once the result was given the list does not grow any more.
-/

namespace CheckpointLedger

/-! ## Figures of a longer list -/

/-- Summed up group by group, the sum is that of all reports, cut once. -/
theorem sumCapped_groups (figure : Report → Nat) (groups : List GroupReports) :
    sumCapped (groups.map (fun g => sumCapped (g.reports.map figure))) =
      min wordMax (sumOf ((groups.flatMap (·.reports)).map figure)) := by
  rw [sumCapped_eq]
  induction groups with
  | nil => rfl
  | cons g rest ih =>
    rw [List.map_cons, sumOf_cons, sumCapped_eq, List.flatMap_cons, List.map_append, sumOf_append]
    omega

namespace Pending

variable {groups : OrderedMap VertexId Nat} {taken more : List (VertexId × Report)}
  {p q : Pending}

/-- **A total is that of the reports that were taken**, in whatever order they came. -/
theorem Holds.total_eq_taken (h : Holds groups taken p) (figure : Report → Nat) :
    sumCapped (p.allGroups.map (fun g => sumCapped (g.reports.map figure))) =
      min wordMax (sumOf ((taken.map Prod.snd).map figure)) := by
  rw [sumCapped_groups, sumOf_perm (h.perm.map figure)]

/-- With more reports no total is less. -/
theorem Holds.total_le (hp : Holds groups taken p) (hq : Holds groups (taken ++ more) q)
    (figure : Report → Nat) :
    sumCapped (p.allGroups.map (fun g => sumCapped (g.reports.map figure))) ≤
      sumCapped (q.allGroups.map (fun g => sumCapped (g.reports.map figure))) := by
  rw [hp.total_eq_taken, hq.total_eq_taken, List.map_append, List.map_append, sumOf_append]
  omega

/-- With more reports the latest acknowledgement is none earlier. -/
theorem Holds.latestAck?_le (hp : Holds groups taken p) (hq : Holds groups (taken ++ more) q) :
    p.latestAck? ≤ q.latestAck? := by
  have hcount : q.count = p.count + more.length := by
    rw [hp.count, hq.count, List.length_append]
  unfold latestAck?
  by_cases hnone : p.count = 0
  · rw [if_pos hnone]
    exact Option.none_le
  · rw [if_neg hnone, if_neg (by omega), Option.some_le_some]
    -- the latest is that of a report, which is among the longer list too
    rcases hp.attained with ⟨hnil, -⟩ | ⟨r, hr, hack⟩
    · exact absurd (hp.count.trans (congrArg List.length hnil)) hnone
    · rw [← hack]
      exact hq.bound r (List.mem_append_left _ hr)

/-- How a record stands to itself later: no figure has gone down. -/
structure Advanced (p q : Pending) : Prop where
  id : q.id = p.id
  trigger : q.trigger = p.trigger
  properties : q.properties = p.properties
  total : q.total = p.total
  count : p.count ≤ q.count
  /-- No acknowledgement is below any time. -/
  latestAck : p.latestAck? ≤ q.latestAck?
  checkpointedSize : p.acknowledged.checkpointedSize ≤ q.acknowledged.checkpointedSize
  stateSize : p.acknowledged.stateSize ≤ q.acknowledged.stateSize
  /-- If the result was given then, nothing has changed. -/
  finalized : p.finalized = true → q = p

end Pending

/-- **A record that took more reports, unless its result was given, has advanced.** -/
theorem Ledger.Kept.advanced {registered p q : Pending} {groups : OrderedMap VertexId Nat}
    {taken more : List (VertexId × Report)} {given given' : Bool}
    (hp : Kept registered groups taken given p)
    (hq : Kept registered groups (taken ++ more) given' q)
    (hfrozen : p.finalized = true → q = p) : Pending.Advanced p q where
  id := hq.id.trans hp.id.symm
  trigger := hq.trigger.trans hp.trigger.symm
  properties := hq.properties.trans hp.properties.symm
  total := by
    rw [Pending.total_eq hp.holds.parallelisms, Pending.total_eq hq.holds.parallelisms]
  count := by
    rw [hp.holds.count, hq.holds.count, List.length_append]
    exact Nat.le_add_right _ _
  latestAck := hp.holds.latestAck?_le hq.holds
  checkpointedSize := hp.holds.total_le hq.holds (·.checkpointedSize)
  stateSize := hp.holds.total_le hq.holds (·.stateSize)
  finalized := hfrozen

/-! ## The record of a registration -/

namespace Ledger

/-- Every registration is due to an operation of the run. -/
theorem exists_of_registered {l : Ledger} {ops : List Operation} {r : Nat × Handle}
    (hr : r ∈ (l.journal ops).registrations) :
    ∃ before trigger properties groups later,
      ops = before ++ .register r.1 trigger properties groups :: later ∧
      ((l.after before).perform (.register r.1 trigger properties groups)).answer =
        .registered r.2 := by
  induction ops generalizing l with
  | nil => exact absurd hr List.not_mem_nil
  | cons o rest ih =>
    rw [journal, Journal.registrations_append, List.mem_append] at hr
    -- it is posted by the first operation or by one of the rest
    rcases hr with hr | hr
    · obtain ⟨p, hp, hregistered⟩ := List.mem_filterMap.mp hr
      have hposted : l.posting? o = some p := Option.mem_toList.mp hp
      cases p with
      | registered record handle =>
        obtain rfl := Option.some.inj hregistered
        have hanswer := answer_of_registered hposted
        unfold posting? Operation.posting? at hposted
        split at hposted
        · obtain ⟨rfl, rfl⟩ := Posting.registered.inj (Option.some.inj hposted)
          exact ⟨[], _, _, _, rest, rfl, hanswer⟩
        all_goals exact absurd hposted (by simp)
      | _ => cases hregistered
    · obtain ⟨before, trigger, properties, groups, later, rfl, hanswer⟩ := ih hr
      exact ⟨o :: before, trigger, properties, groups, later, rfl, hanswer⟩

/-- Whatever is done after its registration, a record is kept with what it has taken since. -/
theorem kept_of_registered {config : Config} {ops : List Operation} {r : Nat × Handle}
    (hr : r ∈ ((new config).journal ops).registrations) :
    ∃ before trigger properties groups rest,
      ops = before ++ .register r.1 trigger properties groups :: rest ∧
      (((new config).after before).perform (.register r.1 trigger properties groups)).answer =
        .registered r.2 ∧
      ∃ taken, ∀ later, ∃ given p, (((new config).after ops).after later).record? r.2 = some p ∧
        Kept (.new r.1 trigger properties groups) groups
          (taken ++ ((new config).after ops).taken r later) given p := by
  obtain ⟨before, trigger, properties, groups, rest, rfl, hregistered⟩ := exists_of_registered hr
  -- all is counted from the registration
  let start := (((new config).after before).perform
    (.register r.1 trigger properties groups)).ledger
  have hsplit : (new config).after (before ++ .register r.1 trigger properties groups :: rest) =
      start.after rest := by
    rw [after_append]
    rfl
  refine ⟨before, trigger, properties, groups, rest, rfl, hregistered, start.taken r rest,
    fun later => ?_⟩
  obtain ⟨p, hp, hkept⟩ := kept_since hregistered (rest ++ later)
  rw [taken_append] at hkept
  rw [after_append] at hp
  rw [hsplit]
  exact ⟨_, p, hp, hkept⟩

/-- **Of any two moments after its registration a record has advanced to the second.** -/
theorem advanced_since {config : Config} {before : List Operation} {r : Nat × Handle}
    (hr : r ∈ ((new config).journal before).registrations) (middle later : List Operation) :
    let l := ((new config).after before).after middle
    ∃ p q, l.record? r.2 = some p ∧ (l.after later).record? r.2 = some q ∧ p.id = r.1 ∧
      p.Advanced q := by
  intro l
  obtain ⟨_, _, _, _, _, -, -, taken, hlater⟩ := kept_of_registered hr
  obtain ⟨_, p, hp, hkept⟩ := hlater middle
  obtain ⟨_, q, hq, hkept'⟩ := hlater (middle ++ later)
  rw [taken_append, ← List.append_assoc] at hkept'
  rw [after_append] at hq
  refine ⟨p, q, hp, hq, hkept.id, hkept.advanced hkept' (fun hdone => ?_)⟩
  -- and a record whose result was given is not changed any more
  have hknown (ops : List Operation) : Known (l.after ops) r := by
    have hknown := known_later hr (middle ++ ops)
    rwa [after_append] at hknown
  exact Option.some.inj (hq.symm.trans (frozen_run hknown hp hdone later))

end Ledger

/-! ## Looking at a snapshot -/

/-- An entry of a history as somebody sees it: the record in the place of its handle. -/
inductive Shown where
  /-- A checkpoint in progress, with its record as it is by then. -/
  | inProgress (record : Pending)
  /-- A checkpoint that ended. -/
  | concluded (c : Conclusion)

namespace Shown

/-- The id of the checkpoint. -/
def id : Shown → Nat
  | inProgress record => record.id
  | concluded c => c.id

/-- Where the checkpoint stands. -/
def status : Shown → Status
  | inProgress _ => .inProgress
  | concluded c => c.status

/-- What becomes of an entry that can be seen: it can still be, and is the same or has advanced. -/
inductive Becomes : Option Shown → Option Shown → Prop where
  | inProgress {p q : Pending} (h : p.Advanced q) : Becomes (some (inProgress p)) (some (inProgress q))
  | concluded (c : Conclusion) : Becomes (some (concluded c)) (some (concluded c))

end Shown

/-- What somebody sees of an entry who has these records, if it is there. -/
def Entry.shown? (records : List Pending) : Entry → Option Shown
  | inProgress _ handle => (records[handle.index]?).map .inProgress
  | concluded c => some (.concluded c)

/-- All that somebody sees of a snapshot. -/
structure Picture where
  counts : Counts
  summary : SummaryView
  /-- The entries of the history, oldest first. -/
  entries : List (Option Shown)
  latestCompleted : Option Completed
  latestSavepoint : Option Completed
  latestFailed : Option Failed
  latestRestored : Option Restored
  latestInitialization : Option Initialization

/-- What somebody sees of a snapshot who has these records. -/
def Snapshot.picture (s : Snapshot) (records : List Pending) : Picture where
  counts := s.counts
  summary := s.summary
  entries := s.history.entries.map (Entry.shown? records)
  latestCompleted := s.history.latestCompleted
  latestSavepoint := s.history.latestSavepoint
  latestFailed := s.history.latestFailed
  latestRestored := s.latestRestored
  latestInitialization := s.latestInitialization

/-- How a picture stands to a later one of the same snapshot: all but the entries is the same. -/
structure Picture.Progress (now later : Picture) : Prop where
  counts : later.counts = now.counts
  summary : later.summary = now.summary
  latest : later.latestCompleted = now.latestCompleted ∧
    later.latestSavepoint = now.latestSavepoint ∧ later.latestFailed = now.latestFailed
  restores : later.latestRestored = now.latestRestored ∧
    later.latestInitialization = now.latestInitialization
  /-- The entries are of the same checkpoints, in the same order. -/
  ids : later.entries.map (·.map Shown.id) = now.entries.map (·.map Shown.id)
  /-- They are as in progress as they were, or as complete. -/
  statuses : later.entries.map (·.map Shown.status) = now.entries.map (·.map Shown.status)
  /-- Those in progress have advanced, and the others are the same. -/
  entries : List.Forall₂ Shown.Becomes now.entries later.entries

theorem Shown.Becomes.id_eq {a b : Option Shown} (h : Becomes a b) :
    b.map Shown.id = a.map Shown.id := by
  cases h with
  | inProgress h => exact congrArg some h.id
  | concluded c => rfl

theorem Shown.Becomes.status_eq {a b : Option Shown} (h : Becomes a b) :
    b.map Shown.status = a.map Shown.status := by
  cases h <;> rfl

/-- Two pictures of one snapshot differ in the entries at most. -/
theorem Snapshot.progress {s : Snapshot} {records records' : List Pending}
    (h : ∀ e ∈ s.history.entries, Shown.Becomes (e.shown? records) (e.shown? records')) :
    (s.picture records).Progress (s.picture records') where
  counts := rfl
  summary := rfl
  latest := ⟨rfl, rfl, rfl⟩
  restores := ⟨rfl, rfl⟩
  ids := by
    rw [picture, picture, List.map_map, List.map_map]
    exact List.map_congr_left (fun e he => (h e he).id_eq)
  statuses := by
    rw [picture, picture, List.map_map, List.map_map]
    exact List.map_congr_left (fun e he => (h e he).status_eq)
  entries := List.forall₂_map_left_iff.mpr
    (List.forall₂_map_right_iff.mpr (List.forall₂_same.mpr h))

/-- If all results were given, nothing about a picture changes. -/
theorem Snapshot.picture_eq_of_finalized {s : Snapshot} {records records' : List Pending}
    (h : ∀ e ∈ s.history.entries, Shown.Becomes (e.shown? records) (e.shown? records'))
    (hdone : ∀ p, some (.inProgress p) ∈ (s.picture records).entries → p.finalized = true) :
    s.picture records' = s.picture records := by
  have hsame : s.history.entries.map (Entry.shown? records') =
      s.history.entries.map (Entry.shown? records) := by
    refine List.map_congr_left (fun e he => ?_)
    have hbecomes := h e he
    have hmem : e.shown? records ∈ (s.picture records).entries := List.mem_map_of_mem he
    generalize e.shown? records = a, e.shown? records' = b at hbecomes hmem ⊢
    cases hbecomes with
    | inProgress hadvanced => rw [hadvanced.finalized (hdone _ hmem)]
    | concluded c => rfl
  rw [picture, picture, hsame]

/-- What is written of an entry depends on what is seen of it. -/
theorem Entry.view_of_shown {e : Entry} {records records' : List Pending}
    (h : e.shown? records = e.shown? records') (extent : Extent) :
    e.view records extent = e.view records' extent := by
  cases e with
  | concluded c => rfl
  | inProgress id handle =>
    have hrecord : records[handle.index]? = records'[handle.index]? :=
      Option.map_injective (fun a b he => Shown.inProgress.inj he) h
    rw [view, view, hrecord]

/-- What is written of a snapshot depends on what is seen of it. -/
theorem Snapshot.view_of_picture {s : Snapshot} {records records' : List Pending}
    (h : s.picture records = s.picture records') : s.view records = s.view records' := by
  have hentries := List.map_inj_left.mp (congrArg Picture.entries h)
  have hchecks : s.history.latestFirst.map (·.view records .brief) =
      s.history.latestFirst.map (·.view records' .brief) := by
    refine List.map_inj_left.mpr (fun e he => Entry.view_of_shown (hentries e ?_) .brief)
    exact List.mem_reverse.mp he
  rw [view, view, History.view, History.view, History.members, History.members, hchecks]

namespace Ledger

/-- **Every entry of a snapshot can be seen, and progresses** from any moment to any later one. -/
theorem becomes_of_shown {config : Config} {before : List Operation} {e : Entry}
    (he : e ∈ ((new config).after before).history.entries) (middle later : List Operation) :
    let l := ((new config).after before).after middle
    (e.shown? l.records).map Shown.id = some e.id ∧
    (e.shown? l.records).map Shown.status = some e.status ∧
    Shown.Becomes (e.shown? l.records) (e.shown? (l.after later).records) := by
  intro l
  rw [(retained_run config before).entries] at he
  obtain ⟨r, hr, rfl⟩ := List.mem_map.mp he
  have hregistered : r ∈ ((new config).journal before).registrations :=
    (List.drop_sublist _ _).subset hr
  -- it is in progress if by then no end of its checkpoint was accepted
  unfold Journal.entryOf
  cases ((new config).journal before).conclusions.find? (·.id == r.1) with
  | some c => exact ⟨rfl, rfl, .concluded c⟩
  | none =>
    obtain ⟨p, q, hp, hq, hid, hadvanced⟩ := advanced_since hregistered middle later
    have hnow : (Entry.inProgress r.1 r.2).shown? l.records = some (.inProgress p) :=
      congrArg (Option.map Shown.inProgress) hp
    have hlater : (Entry.inProgress r.1 r.2).shown? (l.after later).records =
        some (.inProgress q) := congrArg (Option.map Shown.inProgress) hq
    dsimp only
    rw [hnow, hlater]
    exact ⟨congrArg some hid, rfl, .inProgress hadvanced⟩

/--
**Of an old snapshot only the entries in progress change, and they only advance.** A
snapshot was taken after some operations, and somebody looks at it after some more, and
again later. Both times he sees the entries that it was taken with, in their order and with
the statuses of then, and the same counts, summary and latest records. An entry of a
checkpoint that had ended is the same. One that was in progress has a record in which no
figure has gone down, and which is the same if its result had been given. And if all
results had been given, the whole snapshot is written as it was.
-/
theorem snapshot_progress (config : Config) (before : List Operation) :
    let taken := ((new config).after before).perform .snapshot
    ∃ s, taken.answer = .snapshot s ∧ ∀ middle later,
      let l := taken.ledger.after middle
      let now := s.picture l.records
      now.entries.map (·.map Shown.id) = s.history.entries.map (fun e => some e.id) ∧
      now.entries.map (·.map Shown.status) = s.history.entries.map (fun e => some e.status) ∧
      now.Progress (s.picture (l.after later).records) ∧
      ((∀ p, some (.inProgress p) ∈ now.entries → p.finalized = true) →
        s.view (l.after later).records = s.view l.records) := by
  intro taken
  obtain ⟨s, hs, hshows⟩ := shown_run config before
  refine ⟨s, hs, fun middle later => ?_⟩
  intro l now
  have hhistory : s.history = ((new config).after before).history :=
    congrArg Snapshot.history hshows
  -- taking the snapshot counts among what is done until somebody looks
  have hbecomes := fun e (he : e ∈ s.history.entries) =>
    becomes_of_shown (hhistory ▸ he) (.snapshot :: middle) later
  refine ⟨?_, ?_, Snapshot.progress (fun e he => (hbecomes e he).2.2), fun hdone => ?_⟩
  · show (s.history.entries.map _).map _ = _
    rw [List.map_map]
    exact List.map_congr_left (fun e he => (hbecomes e he).1)
  · show (s.history.entries.map _).map _ = _
    rw [List.map_map]
    exact List.map_congr_left (fun e he => (hbecomes e he).2.1)
  · exact Snapshot.view_of_picture
      (Snapshot.picture_eq_of_finalized (fun e he => (hbecomes e he).2.2) hdone)

/-- A snapshot goes on to show the report that comes, and nothing more after the result. -/
theorem pairCheckpoint_progress :
    let taken := ((new {}).after [pairCheckpoint]).perform .snapshot
    let l := taken.ledger.after (pairReports ++ [.fail ⟨0⟩ 99 none])
    ∃ s p q, taken.answer = .snapshot s ∧
      (s.picture taken.ledger.records).entries = [some (.inProgress p)] ∧
      (s.picture l.records).entries = [some (.inProgress q)] ∧
      p.count = 0 ∧ q.count = 1 ∧ q.latestAck? = some 90 ∧ q.finalized = true ∧
      (s.picture taken.ledger.records).Progress (s.picture l.records) ∧
      s.view (l.after [.acknowledge ⟨0⟩ ⟨9, by decide⟩ (Report.new 0 96)]).records =
        s.view l.records := by
  intro taken l
  obtain ⟨s, hs, hprogress⟩ := snapshot_progress {} [pairCheckpoint]
  have hentries (records : List Pending) : (s.picture records).entries =
      [(records[0]?).map Shown.inProgress] := by
    rw [Answer.snapshot.inj (hs.symm.trans rfl)]
    rfl
  have hearly : (s.picture taken.ledger.records).entries = _ := hentries _
  have hlate : (s.picture l.records).entries = _ := hentries _
  obtain ⟨-, -, hadvances, -⟩ := hprogress [] (pairReports ++ [.fail ⟨0⟩ 99 none])
  obtain ⟨-, -, -, hsame⟩ := hprogress (pairReports ++ [.fail ⟨0⟩ 99 none])
    [.acknowledge ⟨0⟩ ⟨9, by decide⟩ (Report.new 0 96)]
  refine ⟨s, _, _, hs, hearly, hlate, rfl, rfl, rfl, rfl, hadvances, hsame (fun p hp => ?_)⟩
  rw [show (s.picture _).entries = _ from hlate] at hp
  obtain rfl := Shown.inProgress.inj (Option.some.inj (List.mem_singleton.mp hp))
  rfl

end Ledger

end CheckpointLedger
