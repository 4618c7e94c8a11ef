import CheckpointLedger.Proofs.Progress
import CheckpointLedger.Proofs.Routing

/-!
# Slots that are filled

Two figures of a record are kept beside its slots: how many of these are filled, and the
latest time of an acknowledgement. A third account goes through the slots again, group by
group, whenever somebody asks for the totals. Here all three are compared with the slots
themselves (`Accounted`), at any moment of any run.

A record that stands under a handle was registered once, and from then on it holds the reports
that it took (`holds_of_record`), each in a slot that was empty before. So the comparison is one
of lists: the count is the length of what was taken, and each slot is filled by one of them. The
bound by the number of slots is the sum of one bound for each group, and is reached exactly if
each of these is.
-/

namespace CheckpointLedger

/-- The report that an operation brings, whichever way it takes. -/
def Operation.brought? : Operation → Option (VertexId × Report)
  | acknowledge _ vertex report => some (vertex, report)
  | route _ vertex report => some (vertex, report)
  | _ => none

/-! ## Counting group by group -/

/-- No group has more filled slots than slots, and together they have as many only if none is empty. -/
theorem sumOf_countP_isSome (groups : List Slots) :
    sumOf (groups.map (·.countP Option.isSome)) ≤ sumOf (groups.map List.length) ∧
    (sumOf (groups.map (·.countP Option.isSome)) = sumOf (groups.map List.length) ↔
      ∀ slots ∈ groups, none ∉ slots) := by
  induction groups with
  | nil => simp
  | cons slots rest ih =>
    obtain ⟨hle, hiff⟩ := ih
    have hhead : slots.countP Option.isSome ≤ slots.length := List.countP_le_length
    have hfull : slots.countP Option.isSome = slots.length ↔ none ∉ slots := by
      rw [List.countP_eq_length]
      constructor
      · intro h hmem
        simpa using h none hmem
      · intro h slot hslot
        cases slot with
        | none => exact absurd hslot h
        | some report => rfl
    simp only [List.map_cons, sumOf_cons, List.forall_mem_cons]
    rw [← hfull, ← hiff]
    omega

namespace Pending

variable {groups : OrderedMap VertexId Nat} {taken : List (VertexId × Report)} {p : Pending}

theorem slot?_of_mem_values {slots : Slots} (h : slots ∈ p.groups.values) :
    ∃ vertex, ∀ i, p.slot? vertex i = slots[i]? := by
  obtain ⟨⟨vertex, slots'⟩, hmem, rfl⟩ := List.mem_map.mp h
  refine ⟨vertex, fun i => ?_⟩
  rw [slot?, (p.groups.find?_eq_some_iff vertex slots').mpr hmem, Option.bind_some]

/-- Some slot is empty if and only if some group has an empty one. -/
theorem forall_slot?_ne_iff (p : Pending) :
    (∀ vertex subtask, p.slot? vertex subtask ≠ some none) ↔
      ∀ slots ∈ p.groups.values, none ∉ slots := by
  constructor
  · intro h slots hslots hnone
    obtain ⟨vertex, hvertex⟩ := slot?_of_mem_values hslots
    obtain ⟨i, hi⟩ := List.mem_iff_getElem?.mp hnone
    exact h vertex i ((hvertex i).trans hi)
  · intro h vertex i hempty
    obtain ⟨slots, hfind, hi⟩ := Option.bind_eq_some_iff.mp hempty
    refine h slots ?_ (List.mem_of_getElem? hi)
    exact List.mem_map.mpr ⟨_, (p.groups.find?_eq_some_iff vertex slots).mp hfind, rfl⟩

/-- The lists of the groups are as long as the groups have filled slots. -/
theorem length_allGroups (p : Pending) :
    p.allGroups.map (·.reports.length) = p.groups.values.map (·.countP Option.isSome) := by
  rw [allGroups, OrderedMap.values, List.map_map, List.map_map]
  refine List.map_congr_left (fun g _ => ?_)
  simp [groupOf, List.length_filterMap_eq_countP]

/-! ## The accounts of a record -/

/-- What a record says of its progress is what its slots say. -/
structure Accounted (p : Pending) : Prop where
  /-- As many slots are filled as are counted. -/
  count : p.count = sumOf (p.groups.values.map (·.countP Option.isSome))
  /-- As many reports are listed. -/
  listed : p.count = sumOf (p.allGroups.map (·.reports.length))
  /-- They are not more than there are slots. -/
  le_total : p.count ≤ p.total
  /-- They are as many if none is empty. -/
  full : p.count = p.total ↔ ∀ vertex subtask, p.slot? vertex subtask ≠ some none
  /-- There is no latest time if none is filled. -/
  latestAck_none : p.latestAck? = none ↔
    ∀ vertex subtask report, p.slot? vertex subtask ≠ some (some report)
  /-- Else one was acknowledged then, and none later. -/
  latestAck_some : ∀ time, p.latestAck? = some time →
    (∃ vertex subtask report, p.slot? vertex subtask = some (some report) ∧ report.ackTime = time) ∧
    ∀ vertex subtask report, p.slot? vertex subtask = some (some report) → report.ackTime ≤ time
  /-- It is the time of the last acknowledgement that is listed. -/
  latest : p.latestAck? = p.acknowledged.latest.map (·.ackTime)

/-- **A record that holds what it took gives account of it.** -/
theorem Holds.accounted (h : Holds groups taken p) : Accounted p := by
  obtain ⟨hagrees, -, hlatest⟩ := h.agrees
  have hlisted : p.count = sumOf (p.allGroups.map (·.reports.length)) := hagrees
  have hcount : p.count = sumOf (p.groups.values.map (·.countP Option.isSome)) := by
    rw [hlisted, length_allGroups]
  have hfilled : ∀ r ∈ taken, p.slot? r.1 r.2.subtask = some (some r.2) := by
    intro r hr
    exact (h.slots r.1 r.2.subtask r.2).mpr ⟨hr, rfl⟩
  obtain ⟨hle, hiff⟩ := sumOf_countP_isSome p.groups.values
  refine ⟨hcount, hlisted, hcount ▸ hle, ?_, ?_, ?_, hlatest⟩
  · rw [forall_slot?_ne_iff, ← hiff, hcount]
    rfl
  · have hnone : p.latestAck? = none ↔ taken = [] := by
      simp [latestAck?, h.count]
    rw [hnone]
    constructor
    · rintro rfl vertex subtask report hslot
      exact absurd ((h.slots vertex subtask report).mp hslot).1 List.not_mem_nil
    · intro hempty
      cases taken with
      | nil => rfl
      | cons r rest => exact absurd (hfilled r List.mem_cons_self) (hempty _ _ _)
  · intro time htime
    have hsome : p.count ≠ 0 ∧ p.latest = time := by
      unfold latestAck? at htime
      by_cases hzero : p.count = 0 <;> simp_all
    obtain ⟨hpositive, rfl⟩ := hsome
    constructor
    · rcases h.attained with ⟨hnil, -⟩ | ⟨r, hr, hack⟩
      · rw [h.count, hnil] at hpositive
        exact absurd rfl hpositive
      · exact ⟨r.1, r.2.subtask, r.2, hfilled r hr, hack⟩
    · intro vertex subtask report hslot
      exact h.bound _ ((h.slots vertex subtask report).mp hslot).1

end Pending

/-! ## The record under a handle -/

namespace Ledger

variable {config : Config} {ops : List Operation} {handle : Handle} {p : Pending}

/--
**What stands under a handle holds what it took**, and later it holds this and whatever it
has taken since.
-/
theorem holds_of_record (h : ((new config).after ops).record? handle = some p) :
    ∃ groups taken, Pending.Holds groups taken p ∧ ∀ later, ∃ q more,
      (((new config).after ops).after later).record? handle = some q ∧
        Pending.Holds groups (taken ++ more) q := by
  have hr := (handed_run config ops).registration h
  obtain ⟨_, _, _, groups, _, -, -, taken, hlater⟩ := kept_of_registered hr
  obtain ⟨_, p', hp, hkept⟩ := hlater []
  obtain rfl := Option.some.inj (h.symm.trans hp)
  refine ⟨groups, _, hkept.holds, fun later => ?_⟩
  obtain ⟨_, q, hq, hkept'⟩ := hlater later
  exact ⟨q, _, hq, by simpa [Ledger.taken] using hkept'.holds⟩

/-- The handle of the record that a report gets to. -/
def addressee? (l : Ledger) : Operation → Option Handle
  | .acknowledge handle _ _ => some handle
  | .route id _ _ => l.inProgress? id
  | _ => none

theorem keep_of_acknowledged {l : Ledger} {vertex : VertexId} {report : Report}
    (h : (l.acknowledge handle vertex report).answer = true) :
    ∃ p, l.record? handle = some p ∧ p.slot? vertex report.subtask = some none ∧
      (l.acknowledge handle vertex report).ledger = l.keep handle (p.fill vertex report) := by
  unfold acknowledge Pending.acknowledge at h ⊢
  cases hrecord : l.record? handle with
  | none => simp [hrecord] at h
  | some p =>
    cases hrefusal : p.refusal? vertex report with
    | some refusal => simp [hrecord, hrefusal] at h
    | none =>
      have hempty := ((p.refusal?_eq_none_iff vertex report).mp hrefusal).2
      exact ⟨p, rfl, hempty, by simp [hrefusal]⟩

/-- A report that is taken is kept in the record that it gets to. -/
theorem keep_of_taken {l : Ledger} {o : Operation} {vertex : VertexId} {report : Report}
    (hbrought : o.brought? = some (vertex, report)) (htaken : (l.perform o).answer = .taken true) :
    ∃ handle p, l.addressee? o = some handle ∧ l.record? handle = some p ∧
      p.slot? vertex report.subtask = some none ∧
      (l.perform o).ledger = l.keep handle (p.fill vertex report) := by
  cases o with
  | acknowledge handle v r =>
    obtain ⟨rfl, rfl⟩ := Prod.mk.inj (Option.some.inj hbrought)
    obtain ⟨p, hp⟩ := keep_of_acknowledged (Answer.taken.inj htaken)
    exact ⟨handle, p, rfl, hp⟩
  | route id v r =>
    obtain ⟨rfl, rfl⟩ := Prod.mk.inj (Option.some.inj hbrought)
    have hroute : (l.route id v r).answer = true := Answer.taken.inj htaken
    cases hopen : l.inProgress? id with
    | none => simp [route, hopen] at hroute
    | some handle =>
      have hstep : l.route id v r = l.acknowledge handle v r := by
        rw [route, hopen]
      rw [hstep] at hroute
      obtain ⟨p, hrecord, hempty, hledger⟩ := keep_of_acknowledged hroute
      refine ⟨handle, p, hopen, hrecord, hempty, ?_⟩
      rw [← hledger, ← hstep]
      rfl
  | _ => cases hbrought

/--
**A record accounts for its slots.** After any run, a report that is taken gets to a record
whose slot for it is empty, and fills this slot; no other slot of this record is changed, and no
other record. Whatever is done later, a slot that is filled holds the same report. And every
record accounts for its slots: the number that it counts is that of the filled ones, and of the
reports listed in all groups; it is not above the number of subtasks, and equal to it if and only
if no slot is empty; there is a latest acknowledgement if and only if a slot is filled, and it is
the latest of these, at the time of the last acknowledgement that is listed.
-/
theorem record_accounts_for_slots (config : Config) (ops : List Operation) :
    let l := (new config).after ops
    (∀ o vertex report, o.brought? = some (vertex, report) →
      (l.perform o).answer = .taken true →
      ∃ handle p q, l.addressee? o = some handle ∧
        l.record? handle = some p ∧ (l.perform o).ledger.record? handle = some q ∧
        p.slot? vertex report.subtask = some none ∧
        (∀ v i, q.slot? v i =
          if v = vertex ∧ i = report.subtask then some (some report) else p.slot? v i) ∧
        ∀ other, other ≠ handle → (l.perform o).ledger.record? other = l.record? other) ∧
    ∀ handle p, l.record? handle = some p →
      p.Accounted ∧
      ∀ later, ∃ q, (l.after later).record? handle = some q ∧
        ∀ vertex subtask report, p.slot? vertex subtask = some (some report) →
          q.slot? vertex subtask = some (some report) := by
  intro l
  constructor
  · intro o vertex report hbrought htaken
    obtain ⟨handle, p, haddressee, hrecord, hempty, hledger⟩ := keep_of_taken hbrought htaken
    rw [hledger]
    refine ⟨handle, p, _, haddressee, hrecord, record?_keep_self hrecord _, hempty, ?_, ?_⟩
    · exact Pending.slot?_fill hempty
    · intro other hother
      exact record?_keep_of_ne hother.symm _
  · intro handle p hrecord
    obtain ⟨groups, taken, hholds, hlater⟩ := holds_of_record hrecord
    refine ⟨hholds.accounted, fun later => ?_⟩
    obtain ⟨q, more, hq, hholds'⟩ := hlater later
    refine ⟨q, hq, fun vertex subtask report hslot => ?_⟩
    -- what was taken is still among what was taken
    obtain ⟨hmem, hsubtask⟩ := (hholds.slots vertex subtask report).mp hslot
    exact (hholds'.slots vertex subtask report).mpr ⟨List.mem_append_left _ hmem, hsubtask⟩

/-- A group of two subtasks and one of none; a report of time zero, and two that are not taken. -/
def timelessRun : List Operation :=
  [.register 3 50 (.checkpoint .never) (.ofList [(⟨10, by decide⟩, 2), (⟨5, by decide⟩, 0)]),
   .acknowledge ⟨0⟩ ⟨10, by decide⟩ (.new 1 0), .route 3 ⟨10, by decide⟩ (.new 1 70),
   .acknowledge ⟨0⟩ ⟨5, by decide⟩ (.new 0 80)]

/-- The other subtask reports under the id. -/
def lastReport : Operation := .route 3 ⟨10, by decide⟩ (.new 0 5)

/-- Time zero is a time; the other subtask fills its slot, and then none is empty. -/
theorem timelessRun_accounts :
    let l := (new {}).after timelessRun
    ∃ p q, l.record? ⟨0⟩ = some p ∧ (l.perform lastReport).ledger.record? ⟨0⟩ = some q ∧
      p.latestAck? = some 0 ∧ p.count = 1 ∧ p.count ≠ p.total ∧
      q.slot? ⟨10, by decide⟩ 1 = some (some (.new 1 0)) ∧
      ∀ vertex subtask, q.slot? vertex subtask ≠ some none := by
  intro l
  obtain ⟨htaken, -⟩ := record_accounts_for_slots {} timelessRun
  obtain ⟨handle, p, q, haddressee, hp, hq, -, hslots, -⟩ :=
    htaken lastReport ⟨10, by decide⟩ (.new 0 5) rfl rfl
  obtain rfl : ⟨0⟩ = handle := Option.some.inj haddressee
  have hfull : q.Accounted := by
    rw [← after_concat] at hq
    exact ((record_accounts_for_slots {} (timelessRun ++ [lastReport])).2 ⟨0⟩ q hq).1
  obtain rfl := Option.some.inj hp
  obtain rfl := Option.some.inj hq
  exact ⟨_, _, rfl, rfl, rfl, rfl, by decide, (hslots _ 1).trans rfl, hfull.full.mp rfl⟩

end Ledger

end CheckpointLedger
