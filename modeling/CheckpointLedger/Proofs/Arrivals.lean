import CheckpointLedger.Proofs.Slots
import Mathlib.Data.List.Sort

/-!
# Reports in another order

A record is brought reports in whatever order the subtasks get to it, some of them
twice, some for groups or subtasks that it does not have. What becomes of it depends
only on **the first report for each slot that it has** (`firstFor?`): a slot holds the
first report that is for it, if there is one (`slot?_deliver`), and everything else
about the record follows from its slots (`Holds.eq_of_slots`).

Nor does it matter in which order somebody goes through the groups and slots who wants
to list them, as long as the list is sorted in the end (`sortBy_eq_of_perm`).
-/

namespace CheckpointLedger

/-! ## Sorting -/

/-- Sorts a list by a key. -/
def sortBy {α : Type} (key : α → Nat) (xs : List α) : List α :=
  xs.mergeSort (fun a b => key a ≤ key b)

theorem pairwise_sortBy {α : Type} (key : α → Nat) (xs : List α) :
    (sortBy key xs).Pairwise (key · ≤ key ·) := by
  have htrans : ∀ a b c : α, decide (key a ≤ key b) → decide (key b ≤ key c) →
      decide (key a ≤ key c) := by
    intro a b c hab hbc
    exact decide_eq_true (Nat.le_trans (of_decide_eq_true hab) (of_decide_eq_true hbc))
  have htotal : ∀ a b : α, decide (key a ≤ key b) || decide (key b ≤ key a) := by
    intro a b
    simpa using Nat.le_total (key a) (key b)
  exact (List.pairwise_mergeSort htrans htotal xs).imp of_decide_eq_true

/-- Where no key comes twice, sorting has one outcome only. -/
theorem sortBy_eq_of_perm {α : Type} {key : α → Nat} {xs ys : List α} (hperm : xs.Perm ys)
    (hincreasing : ys.Pairwise (key · < key ·)) : sortBy key xs = ys := by
  have hsame : (sortBy key xs).Perm ys := (List.mergeSort_perm _ _).trans hperm
  have hkeys : (ys.map key).Nodup := List.pairwise_map.mpr (hincreasing.imp Nat.ne_of_lt)
  refine hsame.eq_of_pairwise (fun a b ha hb hab hba => ?_) (pairwise_sortBy key xs)
    (hincreasing.imp Nat.le_of_lt)
  exact List.inj_on_of_nodup_map hkeys (hsame.mem_iff.mp ha) hb (Nat.le_antisymm hab hba)

/-- The group with its reports in the order of the subtasks. -/
def GroupReports.sorted (g : GroupReports) : GroupReports :=
  { g with reports := sortBy (·.subtask) g.reports }

/-- The list that becomes of groups that were gone through in some order. -/
def GroupReports.arranged (gs : List GroupReports) : List GroupReports :=
  sortBy (·.vertex.value) (gs.map (·.sorted))

/-! ## First reports -/

/-- The first of the reports that is for a slot. -/
def firstFor? (reports : List (VertexId × Report)) (slot : VertexId × Nat) : Option Report :=
  (reports.find? (slotOf · = slot)).map Prod.snd

/-- The first reports for the slots of a group. -/
def firstReports (reports : List (VertexId × Report)) (vertex : VertexId) (parallelism : Nat) :
    List Report :=
  (List.range parallelism).filterMap (fun subtask => firstFor? reports (vertex, subtask))

theorem firstFor?_cons (r : VertexId × Report) (rest : List (VertexId × Report))
    (slot : VertexId × Nat) :
    firstFor? (r :: rest) slot = if slotOf r = slot then some r.2 else firstFor? rest slot := by
  unfold firstFor?
  rw [List.find?_cons]
  by_cases h : slotOf r = slot
  · rw [if_pos h, decide_eq_true h]
    rfl
  · rw [if_neg h, decide_eq_false h]

theorem subtask_of_firstFor? {reports : List (VertexId × Report)} {vertex : VertexId}
    {subtask : Nat} {report : Report} (h : firstFor? reports (vertex, subtask) = some report) :
    report.subtask = subtask := by
  obtain ⟨r, hfind, rfl⟩ := Option.map_eq_some_iff.mp h
  have hslot := List.find?_some (p := fun r => decide (slotOf r = (vertex, subtask))) hfind
  exact congrArg Prod.snd (of_decide_eq_true hslot)

namespace Pending

variable {groups : OrderedMap VertexId Nat} {taken : List (VertexId × Report)} {p q : Pending}

/-- Brings a report to a record, which takes it or stays as it is. -/
def offer (p : Pending) (r : VertexId × Report) : Pending :=
  match p.acknowledge r.1 r.2 with
  | .ok p => p
  | .error _ => p

/-- Brings reports to a record, one after the other. -/
def deliver (p : Pending) (reports : List (VertexId × Report)) : Pending :=
  reports.foldl offer p

/-- A report fills its slot, or has no slot, or comes too late. -/
theorem offer_cases (hopen : p.finalized = false) (r : VertexId × Report) :
    (p.slot? r.1 r.2.subtask = some none ∧ p.offer r = p.fill r.1 r.2) ∨
    (p.slot? r.1 r.2.subtask ≠ some none ∧ p.offer r = p) := by
  have hiff := p.refusal?_eq_none_iff r.1 r.2
  unfold offer acknowledge
  cases hrefusal : p.refusal? r.1 r.2 with
  | none => exact .inl ⟨(hiff.mp hrefusal).2, rfl⟩
  | some refusal =>
    refine .inr ⟨fun hempty => ?_, rfl⟩
    rw [hiff.mpr ⟨hopen, hempty⟩] at hrefusal
    cases hrefusal

/-- What does not depend on the reports stays as it is. -/
structure SameHead (p q : Pending) : Prop where
  id : q.id = p.id
  trigger : q.trigger = p.trigger
  properties : q.properties = p.properties
  finalized : q.finalized = p.finalized

theorem SameHead.trans {a b c : Pending} (hab : SameHead a b) (hbc : SameHead b c) :
    SameHead a c :=
  ⟨hbc.id.trans hab.id, hbc.trigger.trans hab.trigger, hbc.properties.trans hab.properties,
    hbc.finalized.trans hab.finalized⟩

theorem sameHead_offer (p : Pending) (r : VertexId × Report) : SameHead p (p.offer r) := by
  unfold offer acknowledge
  cases p.refusal? r.1 r.2 <;> exact ⟨rfl, rfl, rfl, rfl⟩

theorem sameHead_deliver (p : Pending) (reports : List (VertexId × Report)) :
    SameHead p (p.deliver reports) := by
  induction reports generalizing p with
  | nil => exact ⟨rfl, rfl, rfl, rfl⟩
  | cons r rest ih => exact (sameHead_offer p r).trans (ih (p.offer r))

theorem holds_offer (h : Holds groups taken p) (hopen : p.finalized = false)
    (r : VertexId × Report) : ∃ taken', Holds groups taken' (p.offer r) := by
  rcases offer_cases hopen r with ⟨hempty, he⟩ | ⟨-, he⟩
  · exact ⟨_, he ▸ holds_fill h hempty⟩
  · exact ⟨_, he ▸ h⟩

theorem holds_deliver (h : Holds groups taken p) (hopen : p.finalized = false)
    (reports : List (VertexId × Report)) : ∃ taken', Holds groups taken' (p.deliver reports) := by
  induction reports generalizing p taken with
  | nil => exact ⟨taken, h⟩
  | cons r rest ih =>
    obtain ⟨taken', h'⟩ := holds_offer h hopen r
    exact ih h' ((sameHead_offer p r).finalized.trans hopen)

theorem slot?_offer (hopen : p.finalized = false) (r : VertexId × Report) (v : VertexId)
    (i : Nat) :
    (p.offer r).slot? v i =
      (p.slot? v i).map (·.or (if slotOf r = (v, i) then some r.2 else none)) := by
  obtain ⟨vertex, report⟩ := r
  by_cases hslot : slotOf (vertex, report) = (v, i)
  · obtain ⟨rfl, rfl⟩ := Prod.mk.inj hslot
    rw [if_pos hslot]
    rcases offer_cases hopen (vertex, report) with ⟨hempty, he⟩ | ⟨hnot, he⟩
    · rw [he, slot?_fill hempty, if_pos ⟨rfl, rfl⟩, hempty]
      rfl
    · -- the slot is filled, or there is none
      rw [he]
      cases hfull : p.slot? vertex report.subtask with
      | none => rfl
      | some slot =>
        cases slot with
        | none => exact absurd hfull hnot
        | some earlier => rfl
  · have hsame : (p.offer (vertex, report)).slot? v i = p.slot? v i := by
      rcases offer_cases hopen (vertex, report) with ⟨hempty, he⟩ | ⟨-, he⟩
      · rw [he, slot?_fill hempty, if_neg]
        rintro ⟨rfl, rfl⟩
        exact hslot rfl
      · rw [he]
    rw [if_neg hslot, hsame]
    simp

/-- **A slot holds what it held, or else the first report that is for it.** -/
theorem slot?_deliver (hopen : p.finalized = false) (reports : List (VertexId × Report))
    (v : VertexId) (i : Nat) :
    (p.deliver reports).slot? v i = (p.slot? v i).map (·.or (firstFor? reports (v, i))) := by
  induction reports generalizing p with
  | nil =>
    show p.slot? v i = _
    simp [firstFor?]
  | cons r rest ih =>
    show ((p.offer r).deliver rest).slot? v i = _
    rw [ih ((sameHead_offer p r).finalized.trans hopen), slot?_offer hopen, Option.map_map,
      firstFor?_cons]
    congr 1
    funext slot
    by_cases h : slotOf r = (v, i)
    · rw [if_pos h, if_pos h]
      cases slot <;> rfl
    · rw [if_neg h, if_neg h]
      cases slot <;> rfl

/-! ## The slots are all there is -/

/-- Records of the same groups with the same in every slot are the same, if they began alike. -/
theorem Holds.eq_of_slots {taken' : List (VertexId × Report)} (hp : Holds groups taken p)
    (hq : Holds groups taken' q) (hhead : SameHead p q)
    (hslots : ∀ v i, p.slot? v i = q.slot? v i) : p = q := by
  have hgroups : p.groups = q.groups := by
    refine OrderedMap.ext_find? (fun v => ?_)
    have hlengths : (p.groups.find? v).map List.length = (q.groups.find? v).map List.length := by
      rw [← OrderedMap.find?_map, ← OrderedMap.find?_map, hp.parallelisms, hq.parallelisms]
    have hslots := hslots v
    unfold slot? at hslots
    cases hfind : p.groups.find? v with
    | none =>
      rw [hfind] at hlengths
      exact (Option.map_eq_none_iff.mp hlengths.symm).symm
    | some slots =>
      rw [hfind] at hlengths hslots
      obtain ⟨slots', hfind', -⟩ := Option.map_eq_some_iff.mp hlengths.symm
      rw [hfind'] at hslots ⊢
      exact congrArg some (List.ext_getElem? hslots)
  have hacknowledged : p.acknowledged = q.acknowledged := by
    rw [acknowledged, acknowledged, allGroups, allGroups, hgroups]
  -- the running figures are those of the totals, and the totals those of the groups
  obtain ⟨hcount, hlatest, -⟩ := hp.agrees
  obtain ⟨hcount', hlatest', -⟩ := hq.agrees
  cases p
  cases q
  rw [Pending.mk.injEq]
  exact ⟨hhead.id.symm, hhead.trigger.symm, hhead.properties.symm, hgroups,
    hcount.trans (hacknowledged ▸ hcount'.symm), hlatest.trans (hacknowledged ▸ hlatest'.symm),
    hhead.finalized.symm⟩

/-- What a new record lists are the first reports for its slots. -/
theorem allGroups_deliver (id trigger : Nat) (properties : Properties)
    (groups : OrderedMap VertexId Nat) (reports : List (VertexId × Report)) :
    ((new id trigger properties groups).deliver reports).allGroups =
      groups.entries.map (fun g => ⟨g.1, g.2, firstReports reports g.1 g.2⟩) := by
  have hholds := holds_new id trigger properties groups
  generalize hp : (new id trigger properties groups).deliver reports = p
  obtain ⟨taken, h⟩ := holds_deliver hholds rfl reports
  rw [hp] at h
  have hentries : groups.entries = p.groups.entries.map (fun b => (b.1, b.2.length)) := by
    rw [← h.parallelisms]
    rfl
  rw [hentries, List.map_map]
  refine List.map_congr_left (fun b hb => ?_)
  have hfind := (p.groups.find?_eq_some_iff b.1 b.2).mpr hb
  have hgroup : groups.find? b.1 = some b.2.length := by
    rw [← h.parallelisms, OrderedMap.find?_map, hfind]
    rfl
  -- slot by slot, the group holds the first reports
  have hslots : b.2 = (List.range b.2.length).map (fun i => firstFor? reports (b.1, i)) := by
    refine List.ext_getElem? (fun i => ?_)
    have hslot := slot?_deliver (p := new id trigger properties groups) rfl reports b.1 i
    rw [hp, slot?_new, hgroup, slot?, hfind, Option.bind_some, Option.bind_some] at hslot
    rw [hslot, List.getElem?_map]
    by_cases hi : i < b.2.length
    · rw [if_pos hi, List.getElem?_range hi]
      rfl
    · rw [if_neg hi, List.getElem?_eq_none (by rw [List.length_range]; exact Nat.not_lt.mp hi)]
      rfl
  show GroupReports.mk b.1 b.2.length (b.2.filterMap (fun slot => slot)) =
    ⟨b.1, b.2.length, firstReports reports b.1 b.2.length⟩
  rw [firstReports]
  congr 1
  conv_lhs => rw [hslots]
  rw [List.filterMap_map]
  rfl

theorem increasing_firstReports (reports : List (VertexId × Report)) (vertex : VertexId)
    (parallelism : Nat) :
    (firstReports reports vertex parallelism).Pairwise (·.subtask < ·.subtask) := by
  rw [firstReports, List.pairwise_filterMap]
  refine List.pairwise_lt_range.imp (fun {i j} hlt a ha b hb => ?_)
  rw [subtask_of_firstFor? ha, subtask_of_firstFor? hb]
  exact hlt

/-- Going through groups and slots in another order makes no difference to the list. -/
theorem arranged_eq {reports : List (VertexId × Report)} {traversal : List GroupReports}
    (hgroups : (traversal.map (fun g => (g.vertex, g.parallelism))).Perm groups.entries)
    (hreports : ∀ g ∈ traversal,
      g.reports.Perm (firstReports reports g.vertex g.parallelism)) :
    GroupReports.arranged traversal =
      groups.entries.map (fun g => ⟨g.1, g.2, firstReports reports g.1 g.2⟩) := by
  refine sortBy_eq_of_perm ?_ ?_
  · have hsorted : traversal.map (·.sorted) =
        (traversal.map (fun g => (g.vertex, g.parallelism))).map
          (fun g => ⟨g.1, g.2, firstReports reports g.1 g.2⟩) := by
      rw [List.map_map]
      refine List.map_congr_left (fun g hg => ?_)
      show GroupReports.mk g.vertex g.parallelism (sortBy (·.subtask) g.reports) = _
      rw [sortBy_eq_of_perm (hreports g hg) (increasing_firstReports reports _ _)]
      rfl
    rw [hsorted]
    exact hgroups.map _
  · rw [List.pairwise_map]
    exact groups.increasing.imp (fun hlt => Nat.compare_eq_lt.mp hlt)

/-- Lists with the same first reports for the slots of the groups make the same record. -/
theorem deliver_same (id trigger : Nat) (properties : Properties)
    {groups : OrderedMap VertexId Nat} {xs ys : List (VertexId × Report)}
    (hfirst : ∀ vertex parallelism, groups.find? vertex = some parallelism →
      ∀ subtask < parallelism, firstFor? xs (vertex, subtask) = firstFor? ys (vertex, subtask)) :
    (new id trigger properties groups).deliver xs =
      (new id trigger properties groups).deliver ys := by
  have hnew := holds_new id trigger properties groups
  obtain ⟨taken, hp⟩ := holds_deliver hnew rfl xs
  obtain ⟨taken', hq⟩ := holds_deliver hnew rfl ys
  have hheadp := sameHead_deliver (new id trigger properties groups) xs
  have hheadq := sameHead_deliver (new id trigger properties groups) ys
  refine hp.eq_of_slots hq ⟨hheadq.id.trans hheadp.id.symm,
    hheadq.trigger.trans hheadp.trigger.symm, hheadq.properties.trans hheadp.properties.symm,
    hheadq.finalized.trans hheadp.finalized.symm⟩ (fun v i => ?_)
  rw [slot?_deliver rfl, slot?_deliver rfl, slot?_new]
  cases hgroup : groups.find? v with
  | none => rfl
  | some n =>
    rw [Option.bind_some]
    by_cases hi : i < n
    · rw [hfirst v n hgroup i hi]
    · rw [if_neg hi]
      rfl

/--
**A record depends on the first report for each slot, and on nothing else.** Brought to
a new record of any groups, two lists of reports in which the same report comes first,
or none, for every slot that there is make the same record of it: with the same count,
latest acknowledgement, groups and totals. Asked for the result, it gives the same, of
either kind. And whoever goes through the groups, and in each through the first reports
for its slots, in whatever order, and sorts what was found, has its list and its number
of slots.
-/
theorem deliver_eq_of_first (id trigger : Nat) (properties : Properties)
    (groups : OrderedMap VertexId Nat) {xs ys : List (VertexId × Report)}
    (hfirst : ∀ vertex parallelism, groups.find? vertex = some parallelism →
      ∀ subtask < parallelism, firstFor? xs (vertex, subtask) = firstFor? ys (vertex, subtask)) :
    let p := (new id trigger properties groups).deliver xs
    let q := (new id trigger properties groups).deliver ys
    p = q ∧
    (∀ pointer metadataSize, ∃ c after, p.complete pointer metadataSize = .ok (c, after) ∧
      q.complete pointer metadataSize = .ok (c, after)) ∧
    (∀ failureTime message, ∃ f after, p.fail failureTime message = .ok (f, after) ∧
      q.fail failureTime message = .ok (f, after)) ∧
    ∀ traversal : List GroupReports,
      (traversal.map (fun g => (g.vertex, g.parallelism))).Perm groups.entries →
      (∀ g ∈ traversal, g.reports.Perm (firstReports xs g.vertex g.parallelism)) →
      GroupReports.arranged traversal = p.allGroups ∧
        sumOf (traversal.map (·.parallelism)) = p.total := by
  intro p q
  have hsame : p = q := deliver_same id trigger properties hfirst
  have hopen : p.finalized = false :=
    (sameHead_deliver (new id trigger properties groups) xs).finalized
  have hresult : p.finalize = .ok (p.gathered, { p with finalized := true }) := by
    rw [finalize, hopen]
    rfl
  refine ⟨hsame, fun pointer metadataSize => ?_, fun failureTime message => ?_,
    fun traversal hgroups hreports => ⟨?_, ?_⟩⟩
  · refine ⟨{ p.gathered with pointer, metadataSize }, { p with finalized := true }, ?_, ?_⟩
    · rw [complete, hresult]
      rfl
    · rw [← hsame, complete, hresult]
      rfl
  · refine ⟨{ p.gathered with failureTime, message }, { p with finalized := true }, ?_, ?_⟩
    · rw [fail, hresult]
      rfl
    · rw [← hsame, fail, hresult]
      rfl
  · rw [arranged_eq hgroups hreports]
    exact (allGroups_deliver id trigger properties groups xs).symm
  · have hvalues := hgroups.map Prod.snd
    rw [List.map_map] at hvalues
    obtain ⟨taken, hp⟩ := holds_deliver (holds_new id trigger properties groups) rfl xs
    rw [total_eq hp.parallelisms]
    exact sumOf_perm hvalues

/-- A group of two subtasks. -/
def pairOfSubtasks : OrderedMap VertexId Nat := .ofList [(⟨7, by decide⟩, 2)]

/-- The subtasks report in their order. -/
def orderlyReports : List (VertexId × Report) :=
  [(⟨7, by decide⟩, (Report.new 0 100).withSizes 1 wordMax),
   (⟨7, by decide⟩, (Report.new 1 100).withSizes 2 5)]

/-- They report in the other order, one of them twice, and two report that there are not. -/
def crossedReports : List (VertexId × Report) :=
  [(⟨7, by decide⟩, Report.new 2 900), (⟨7, by decide⟩, (Report.new 1 100).withSizes 2 5),
   (⟨7, by decide⟩, Report.new 1 900), (⟨8, by decide⟩, Report.new 0 900),
   (⟨7, by decide⟩, (Report.new 0 100).withSizes 1 wordMax)]

theorem deliver_crossedReports :
    let p := (new 3 50 (.checkpoint .never) pairOfSubtasks).deliver orderlyReports
    let q := (new 3 50 (.checkpoint .never) pairOfSubtasks).deliver crossedReports
    p = q ∧ p.count = 2 ∧ p.acknowledged.latest = some ((Report.new 1 100).withSizes 2 5) := by
  have hfirst : ∀ vertex parallelism, pairOfSubtasks.find? vertex = some parallelism →
      ∀ subtask < parallelism, firstFor? orderlyReports (vertex, subtask) =
        firstFor? crossedReports (vertex, subtask) := by
    intro vertex parallelism hfind
    have hmem := (pairOfSubtasks.find?_eq_some_iff vertex parallelism).mp hfind
    obtain ⟨rfl, rfl⟩ := Prod.mk.inj (List.mem_singleton.mp hmem)
    decide
  exact ⟨(deliver_eq_of_first 3 50 (.checkpoint .never) pairOfSubtasks hfirst).1, rfl, rfl⟩

end Pending

end CheckpointLedger
