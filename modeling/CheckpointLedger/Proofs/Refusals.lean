import CheckpointLedger.Proofs.Generations
import CheckpointLedger.Proofs.Lifecycle

/-!
# What is declined, and why

An operation looks at the ledger to decide whether it is in order. What it looks at
stands for what was accepted before: the last id for all registered ones, the current
generation for what its attempts have reported. `Objection` lists the reasons there
are for not being in order, in those terms, and an operation is declined exactly if
one of them applies.

What is declined has no part in the run. It leaves the ledger as it was, with every
record and with the snapshot that is current, and only the log is told.
-/

namespace CheckpointLedger

/-- Why the record of a checkpoint does not take a report. -/
inductive Pending.Refuses (p : Pending) (vertex : VertexId) (report : Report) : Prop where
  /-- The result was given. -/
  | finalized (h : p.finalized = true)
  /-- There is no such task group. -/
  | unknownGroup (h : p.groups.find? vertex = none)
  /-- The group has fewer subtasks. -/
  | noSuchSubtask {slots : Slots} (hgroup : p.groups.find? vertex = some slots)
      (h : slots.length ≤ report.subtask)
  /-- The slot has a report. -/
  | filled {slots : Slots} {earlier : Report} (hgroup : p.groups.find? vertex = some slots)
      (h : slots[report.subtask]? = some (some earlier))

theorem Pending.refusal?_ne_none_iff (p : Pending) (vertex : VertexId) (report : Report) :
    p.refusal? vertex report ≠ none ↔ p.Refuses vertex report := by
  unfold refusal?
  by_cases hdone : p.finalized = true
  · rw [if_pos hdone]
    exact ⟨fun _ => .finalized hdone, fun _ => Option.some_ne_none _⟩
  · rw [if_neg hdone]
    cases hgroup : p.groups.find? vertex with
    | none => exact ⟨fun _ => .unknownGroup hgroup, fun _ => Option.some_ne_none _⟩
    | some slots =>
      dsimp only
      cases hslot : slots[report.subtask]? with
      | none =>
        have hout := List.getElem?_eq_none_iff.mp hslot
        exact ⟨fun _ => .noSuchSubtask hgroup hout, fun _ => Option.some_ne_none _⟩
      | some slot =>
        cases slot with
        | some earlier => exact ⟨fun _ => .filled hgroup hslot, fun _ => Option.some_ne_none _⟩
        | none =>
          -- the slot is there and empty: none of the reasons applies
          refine ⟨fun h => absurd rfl h, fun h => ?_⟩
          cases h with
          | finalized h => exact absurd h hdone
          | unknownGroup h => rw [hgroup] at h; cases h
          | noSuchSubtask h hout =>
            obtain rfl := Option.some.inj (hgroup.symm.trans h)
            rw [List.getElem?_eq_none_iff.mpr hout] at hslot
            cases hslot
          | filled h hfull =>
            obtain rfl := Option.some.inj (hgroup.symm.trans h)
            rw [hslot] at hfull
            cases Option.some.inj hfull

/-- There is a current generation from the first one on. -/
theorem Journal.epoch?_eq_none_iff (j : Journal) : j.epoch? = none ↔ j.generations = 0 := by
  induction j using List.reverseRecOn with
  | nil => exact ⟨fun _ => rfl, fun _ => rfl⟩
  | append_singleton j p ih =>
    rw [epoch?_append, generations_append]
    cases p with
    | began attempts start =>
      exact ⟨fun h => absurd h (Option.some_ne_none _), fun h => absurd h (Nat.succ_ne_zero _)⟩
    | measured attempt metrics => exact Option.map_eq_none_iff.trans ih
    | restored id properties path stateSize => exact Option.map_eq_none_iff.trans ih
    | _ => exact ih

/-- Awaited is who is expected and has not reported, while the generation is not complete. -/
theorem Generation.Follows.awaits_iff {e : Epoch} {g : Generation} (h : g.Follows e)
    (attempt : AttemptId) :
    g.awaits attempt = true ↔
      g.completed = false ∧ attempt ∈ e.attempts ∧ attempt ∉ e.reports.map Prod.fst := by
  have hempty : g.attempts.find? attempt = some none ↔
      attempt ∈ e.attempts ∧ attempt ∉ e.reports.map Prod.fst := by
    constructor
    · intro hnone
      refine ⟨(h.expected attempt).mp ⟨none, hnone⟩, fun hreported => ?_⟩
      obtain ⟨⟨a, m⟩, hmem, rfl⟩ := List.mem_map.mp hreported
      have := (h.reports a m).mpr hmem
      rw [hnone] at this
      cases Option.some.inj this
    · rintro ⟨hexpected, hnot⟩
      obtain ⟨m, hm⟩ := (h.expected attempt).mpr hexpected
      cases m with
      | none => exact hm
      | some m => exact absurd (List.mem_map.mpr ⟨_, (h.reports attempt m).mp hm, rfl⟩) hnot
  rw [awaits, Bool.and_eq_true, Bool.not_eq_true', beq_iff_eq, hempty]

/-- The handle that an operation is done with. -/
def Operation.handle? : Operation → Option Handle
  | acknowledge handle _ _ => some handle
  | complete handle _ _ => some handle
  | fail handle _ _ => some handle
  | _ => none

/-- A reason to decline an operation, after what a journal tells and as a ledger stands. -/
inductive Objection (j : Journal) (l : Ledger) : Operation → Prop where
  /-- The id is not above all that were registered. -/
  | idInUse {id trigger : Nat} {properties : Properties} {groups : OrderedMap VertexId Nat}
      {r : Nat × Handle} (hr : r ∈ j.registrations) (h : id ≤ r.1) :
      Objection j l (.register id trigger properties groups)
  /-- The checkpoint that is to have completed is not in progress. -/
  | noneToComplete {c : Completed} (h : l.inProgress? c.id = none) :
      Objection j l (.reportCompleted c)
  /-- The checkpoint that is to have failed is not in progress. -/
  | noneToFail {f : Failed} (h : l.inProgress? f.id = none) : Objection j l (.reportFailed f)
  /-- The result was given before. -/
  | completeTwice {handle : Handle} {pointer : Option String} {metadataSize : Nat}
      {record : Pending} (hr : l.record? handle = some record) (h : record.finalized = true) :
      Objection j l (.complete handle pointer metadataSize)
  /-- The result was given before. -/
  | failTwice {handle : Handle} {failureTime : Nat} {message : Option String}
      {record : Pending} (hr : l.record? handle = some record) (h : record.finalized = true) :
      Objection j l (.fail handle failureTime message)
  /-- No generation has begun that could be restored. -/
  | nothingToRestore {id : Nat} {properties : Properties} {path : Option String}
      {stateSize : Nat} (h : j.generations = 0) :
      Objection j l (.reportRestored id properties path stateSize)
  /-- No generation has begun that could be measured. -/
  | nothingToMeasure {attempt : AttemptId} {metrics : AttemptMetrics} (h : j.generations = 0) :
      Objection j l (.reportMetrics attempt metrics)
  /-- The current generation is complete. -/
  | complete {attempt : AttemptId} {metrics : AttemptMetrics} {g : Generation}
      (hg : l.generation = some g) (h : g.completed = true) :
      Objection j l (.reportMetrics attempt metrics)
  /-- The current generation does not expect the attempt. -/
  | unexpected {attempt : AttemptId} {metrics : AttemptMetrics} {e : Epoch}
      (he : j.epoch? = some e) (h : attempt ∉ e.attempts) :
      Objection j l (.reportMetrics attempt metrics)
  /-- The attempt has reported in the current generation. -/
  | measuredTwice {attempt : AttemptId} {metrics : AttemptMetrics} {e : Epoch}
      (he : j.epoch? = some e) (h : attempt ∈ e.reports.map Prod.fst) :
      Objection j l (.reportMetrics attempt metrics)
  /-- The record does not take the report. -/
  | refused {handle : Handle} {vertex : VertexId} {report : Report} {record : Pending}
      (hr : l.record? handle = some record) (h : record.Refuses vertex report) :
      Objection j l (.acknowledge handle vertex report)
  /-- There is no checkpoint in progress to take the report to. -/
  | noneToRoute {id : Nat} {vertex : VertexId} {report : Report} (h : l.inProgress? id = none) :
      Objection j l (.route id vertex report)
  /-- The record of the checkpoint in progress does not take the report. -/
  | routedRefused {id : Nat} {vertex : VertexId} {report : Report} {handle : Handle}
      {record : Pending} (hi : l.inProgress? id = some handle)
      (hr : l.record? handle = some record) (h : record.Refuses vertex report) :
      Objection j l (.route id vertex report)

namespace Ledger

/-! ## Each reason, in terms of the ledger -/

theorem objection_register_iff {j : Journal} {l : Ledger} (ht : Tracked j l)
    (id trigger : Nat) (properties : Properties) (groups : OrderedMap VertexId Nat) :
    (∃ last, l.lastId = some last ∧ id ≤ last) ↔
      Objection j l (.register id trigger properties groups) := by
  constructor
  · rintro ⟨last, hlast, hle⟩
    rw [ht.lastId, Option.map_eq_some_iff] at hlast
    obtain ⟨r, hr, rfl⟩ := hlast
    exact .idInUse (List.mem_of_getLast? hr) hle
  · intro h
    cases h with
    | idInUse hr hle =>
      -- if the last one were below, all of them would be
      by_contra hnone
      have hfree : ∀ last, l.lastId = some last → last < id :=
        fun last hlast => Nat.lt_of_not_le (fun hle => hnone ⟨last, hlast, hle⟩)
      exact Nat.not_le_of_lt (ht.lt_of_free hfree _ hr) hle

theorem objection_reportMetrics_iff {j : Journal} {l : Ledger} (h : Restoring j l)
    (attempt : AttemptId) (metrics : AttemptMetrics) :
    (∀ g, l.generation = some g → g.awaits attempt = false) ↔
      Objection j l (.reportMetrics attempt metrics) := by
  cases hg : l.generation with
  | none =>
    have hnone := (j.epoch?_eq_none_iff).mp (h.none hg)
    exact ⟨fun _ => .nothingToMeasure hnone, fun _ g hsome => absurd hsome (by simp)⟩
  | some g =>
    obtain ⟨_, e, he, hfollows, _⟩ := h.some g hg
    have hiff := hfollows.awaits_iff attempt
    constructor
    · intro hnot
      have hnot := hnot g rfl
      rw [← Bool.not_eq_true, hiff] at hnot
      by_cases hdone : g.completed = true
      · exact .complete hg hdone
      · by_cases hexpected : attempt ∈ e.attempts
        · refine .measuredTwice he (by_contra fun hfirst => hnot ⟨?_, hexpected, hfirst⟩)
          exact Bool.eq_false_iff.mpr hdone
        · exact .unexpected he hexpected
    · intro hobjection g' hg'
      obtain rfl := Option.some.inj hg'
      rw [← Bool.not_eq_true, hiff]
      rintro ⟨hopen, hexpected, hfirst⟩
      cases hobjection with
      | nothingToMeasure hnever =>
        rw [(j.epoch?_eq_none_iff).mpr hnever] at he
        cases he
      | complete hg' hdone =>
        obtain rfl := Option.some.inj (hg.symm.trans hg')
        exact Bool.false_ne_true (hopen.symm.trans hdone)
      | unexpected he' hnot => exact hnot (Option.some.inj (he.symm.trans he') ▸ hexpected)
      | measuredTwice he' htwice => exact hfirst (Option.some.inj (he'.symm.trans he) ▸ htwice)

theorem objection_reportRestored_iff {j : Journal} {l : Ledger} (h : Restoring j l) (id : Nat)
    (properties : Properties) (path : Option String) (stateSize : Nat) :
    l.generation = none ↔ Objection j l (.reportRestored id properties path stateSize) := by
  constructor
  · exact fun hnone => .nothingToRestore ((j.epoch?_eq_none_iff).mp (h.none hnone))
  · intro hobjection
    cases hobjection with
    | nothingToRestore hnever =>
      cases hg : l.generation with
      | none => rfl
      | some g =>
        obtain ⟨_, e, he, _⟩ := h.some g hg
        rw [(j.epoch?_eq_none_iff).mpr hnever] at he
        cases he

/-- The handle of a checkpoint has a record, so only the record can have an objection. -/
theorem objection_acknowledge_iff {j : Journal} {l : Ledger} (h : Handed j l) {handle : Handle}
    (hgiven : handle ∈ j.registrations.map Prod.snd) (vertex : VertexId) (report : Report) :
    (∀ record, l.record? handle = some record → record.refusal? vertex report ≠ none) ↔
      Objection j l (.acknowledge handle vertex report) := by
  obtain ⟨r, hr, rfl⟩ := List.mem_map.mp hgiven
  obtain ⟨record, hrecord, _⟩ := h.record hr
  constructor
  · intro hrefusal
    exact .refused hrecord ((record.refusal?_ne_none_iff vertex report).mp (hrefusal record hrecord))
  · intro hobjection other hother
    cases hobjection with
    | refused hrecord hrefuses =>
      obtain rfl := Option.some.inj (hrecord.symm.trans hother)
      exact (Pending.refusal?_ne_none_iff _ vertex report).mpr hrefuses

theorem objection_route_iff {j : Journal} {l : Ledger} (ht : Tracked j l) (h : Handed j l)
    (id : Nat) (vertex : VertexId) (report : Report) :
    (∀ handle, l.inProgress? id = some handle →
      ∀ record, l.record? handle = some record → record.refusal? vertex report ≠ none) ↔
      Objection j l (.route id vertex report) := by
  cases hopen : l.inProgress? id with
  | none => exact ⟨fun _ => .noneToRoute hopen, fun _ handle hsome => absurd hsome (by simp)⟩
  | some handle =>
    have hgiven := List.mem_map_of_mem (f := Prod.snd) (ht.mem_iff.mp hopen).1
    -- from here on it is as if the holder of the handle reported
    have hiff := objection_acknowledge_iff h hgiven vertex report
    constructor
    · intro hrefusal
      cases hiff.mp (hrefusal handle rfl) with
      | refused hrecord hrefuses => exact .routedRefused hopen hrecord hrefuses
    · intro hobjection other hother
      obtain rfl := Option.some.inj hother
      refine hiff.mpr ?_
      cases hobjection with
      | noneToRoute hnone => rw [hopen] at hnone; cases hnone
      | routedRefused hopen' hrecord hrefuses =>
        obtain rfl := Option.some.inj (hopen.symm.trans hopen')
        exact .refused hrecord hrefuses

/-! ## What is declined -/

theorem isDeclined_iff_objection {j : Journal} {l : Ledger} (ht : Tracked j l) (hh : Handed j l)
    (hr : Restoring j l) {o : Operation}
    (hgiven : ∀ handle, o.handle? = some handle → handle ∈ j.registrations.map Prod.snd) :
    (l.perform o).answer.isDeclined = true ↔ Objection j l o := by
  -- an operation that is always done has no objection to go with it
  have hnever (hanswer : (l.perform o).answer.isDeclined = false) (hnone : ¬ Objection j l o) :
      (l.perform o).answer.isDeclined = true ↔ Objection j l o := by
    rw [hanswer]
    exact ⟨fun h => absurd h Bool.false_ne_true, fun h => absurd h hnone⟩
  cases o with
  | register id trigger properties groups =>
    exact (declined_register l id trigger properties groups).iff.trans
      (objection_register_iff ht id trigger properties groups)
  | acknowledge handle vertex report =>
    exact (declined_acknowledge l handle vertex report).iff.trans
      (objection_acknowledge_iff hh (hgiven handle rfl) vertex report)
  | route id vertex report =>
    exact (declined_route l id vertex report).iff.trans
      (objection_route_iff ht hh id vertex report)
  | complete handle pointer metadataSize =>
    refine (declined_complete l handle pointer metadataSize).iff.trans ⟨?_, fun h => ?_⟩
    · rintro ⟨record, hrecord, hdone⟩
      exact .completeTwice hrecord hdone
    · cases h with
      | completeTwice hrecord hdone => exact ⟨_, hrecord, hdone⟩
  | fail handle failureTime message =>
    refine (declined_fail l handle failureTime message).iff.trans ⟨?_, fun h => ?_⟩
    · rintro ⟨record, hrecord, hdone⟩
      exact .failTwice hrecord hdone
    · cases h with
      | failTwice hrecord hdone => exact ⟨_, hrecord, hdone⟩
  | reportCompleted c =>
    refine (declined_reportCompleted l c).iff.trans ⟨.noneToComplete, fun h => ?_⟩
    cases h with
    | noneToComplete hnone => exact hnone
  | reportFailed f =>
    refine (declined_reportFailed l f).iff.trans ⟨.noneToFail, fun h => ?_⟩
    cases h with
    | noneToFail hnone => exact hnone
  | reportMetrics attempt metrics =>
    exact (declined_reportMetrics l attempt metrics).iff.trans
      (objection_reportMetrics_iff hr attempt metrics)
  | reportRestored id properties path stateSize =>
    exact (declined_reportRestored l id properties path stateSize).iff.trans
      (objection_reportRestored_iff hr id properties path stateSize)
  | reportUntriggered => exact hnever rfl (fun h => nomatch h)
  | beginInitialization attempts start => exact hnever rfl (fun h => nomatch h)
  | snapshot => exact hnever rfl (fun h => nomatch h)

/--
**An operation is declined exactly if there is an objection, and is then without any
effect.** After every run, an operation whose handle, if it has one, was given out in
this run is declined if and only if one of the reasons of `Objection` applies. And
whatever is declined leaves the very ledger that it found, with its counts, figures,
history, records and current snapshot, and tells nobody but the log.
-/
theorem declined_iff_objection (config : Config) (ops : List Operation) (o : Operation) :
    let j := (new config).journal ops
    let l := (new config).after ops
    ((∀ handle, o.handle? = some handle → handle ∈ j.registrations.map Prod.snd) →
      ((l.perform o).answer.isDeclined = true ↔ Objection j l o)) ∧
    ((l.perform o).answer.isDeclined = true →
      (l.perform o).ledger = l ∧ (l.perform o).outward = []) := by
  intro j l
  refine ⟨fun hgiven => ?_, fun hdeclined => ?_⟩
  · exact isDeclined_iff_objection (tracked_run config ops) (handed_run config ops)
      (restoring_run config ops) hgiven
  · exact ⟨ledger_of_declined hdeclined, outward_of_not_posted (posting?_of_declined hdeclined)⟩

/-- A checkpoint whose record was asked for the result, which nobody has reported back. -/
def askedRun : List Operation := [.registerBare 4, .complete ⟨0⟩ none 0]

/--
The record does not give a second result, not even a failure. To report the first is in
order, and so is the next id.
-/
theorem askedRun_declines :
    ((((new ⟨1⟩).after askedRun).perform (.fail ⟨0⟩ 9 none)).answer.isDeclined = true ∧
      (((new ⟨1⟩).after askedRun).perform (.fail ⟨0⟩ 9 none)).ledger =
        (new ⟨1⟩).after askedRun) ∧
    ¬ Objection ((new ⟨1⟩).journal askedRun) ((new ⟨1⟩).after askedRun)
      (.reportCompleted (.bare 4)) ∧
    ¬ Objection ((new ⟨1⟩).journal askedRun) ((new ⟨1⟩).after askedRun) (.registerBare 5) := by
  obtain ⟨hiff, hnothing⟩ := declined_iff_objection ⟨1⟩ askedRun (.fail ⟨0⟩ 9 none)
  have hgiven : ∀ handle, some (⟨0⟩ : Handle) = some handle →
      handle ∈ ((new ⟨1⟩).journal askedRun).registrations.map Prod.snd := by
    rintro _ ⟨⟩
    exact List.mem_cons_self
  have hdeclined := (hiff hgiven).mpr (.failTwice rfl rfl)
  have hreport := (declined_iff_objection ⟨1⟩ askedRun (.reportCompleted (.bare 4))).1 nofun
  have hnext := (declined_iff_objection ⟨1⟩ askedRun (.registerBare 5)).1 nofun
  exact ⟨⟨hdeclined, (hnothing hdeclined).1⟩, fun h => absurd (hreport.mpr h) (by decide),
    fun h => absurd (hnext.mpr h) (by decide)⟩

end Ledger

end CheckpointLedger
