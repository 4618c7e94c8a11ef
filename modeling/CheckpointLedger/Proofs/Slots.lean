import CheckpointLedger.Pending
import CheckpointLedger.Proofs.Maps
import Mathlib.Data.List.Nodup

/-!
# What the slots of a record hold

A record in progress has three things to say of the reports it took: the slots they
are in, how many there are, and the latest time of an acknowledgement. The last two
are kept up to date by themselves, and whoever asks for the totals goes through the
slots again.

`Holds` says what all three have to do with **the reports that were taken**, as a list
in the order of their arrival: each is in the slot that it is for, no two are for the
same slot, and the running figures are theirs. A report that is taken keeps this up,
since its slot was empty (`holds_fill`).

From this follows what is listed, group by group (`Holds.lists`), and that the running
figures are those of the totals (`Holds.agrees`).
-/

namespace CheckpointLedger

/-- The slot that a report is for. -/
def slotOf (r : VertexId × Report) : VertexId × Nat := (r.1, r.2.subtask)

namespace Pending

/-- The slot of a subtask, if the record has one. -/
def slot? (p : Pending) (vertex : VertexId) (subtask : Nat) : Option (Option Report) :=
  (p.groups.find? vertex).bind (·[subtask]?)

/-- A report is taken if its slot is there and empty, and the result was not given. -/
theorem refusal?_eq_none_iff (p : Pending) (vertex : VertexId) (report : Report) :
    p.refusal? vertex report = none ↔
      p.finalized = false ∧ p.slot? vertex report.subtask = some none := by
  unfold refusal? slot?
  cases p.finalized with
  | true => simp
  | false =>
    cases p.groups.find? vertex with
    | none => simp
    | some slots =>
      rw [Option.bind_some]
      dsimp only
      cases slots[report.subtask]? with
      | none => simp
      | some slot => cases slot <;> simp

theorem slot?_new (id trigger : Nat) (properties : Properties)
    (groups : OrderedMap VertexId Nat) (vertex : VertexId) (subtask : Nat) :
    (new id trigger properties groups).slot? vertex subtask =
      (groups.find? vertex).bind (fun n => if subtask < n then some none else none) := by
  show ((groups.map (List.replicate · none)).find? vertex).bind _ = _
  rw [OrderedMap.find?_map]
  cases groups.find? vertex with
  | none => rfl
  | some n => exact List.getElem?_replicate

theorem slot?_fill {p : Pending} {vertex : VertexId} {report : Report}
    (h : p.slot? vertex report.subtask = some none) (v : VertexId) (i : Nat) :
    (p.fill vertex report).slot? v i =
      if v = vertex ∧ i = report.subtask then some (some report) else p.slot? v i := by
  show ((p.groups.modify vertex (·.set report.subtask (some report))).find? v).bind (·[i]?) = _
  rw [OrderedMap.find?_modify]
  by_cases hv : v = vertex
  · subst hv
    rw [if_pos rfl]
    unfold slot? at h ⊢
    cases hslots : p.groups.find? v with
    | none =>
      rw [hslots] at h
      cases h
    | some slots =>
      rw [hslots, Option.bind_some] at h
      rw [Option.map_some, Option.bind_some, Option.bind_some, List.getElem?_set]
      have hlt : report.subtask < slots.length := (List.getElem?_eq_some_iff.mp h).1
      by_cases hi : report.subtask = i
      · rw [if_pos hi, if_pos hlt, if_pos ⟨rfl, hi.symm⟩]
      · rw [if_neg hi, if_neg (fun he => hi he.2.symm)]
  · rw [if_neg hv, if_neg (fun he => hv he.1)]
    rfl

/-! ## The groups stay as they were registered -/

theorem parallelisms_new (id trigger : Nat) (properties : Properties)
    (groups : OrderedMap VertexId Nat) :
    (new id trigger properties groups).groups.map List.length = groups := by
  refine OrderedMap.ext_find? (fun vertex => ?_)
  show ((groups.map (List.replicate · none)).map List.length).find? vertex = _
  rw [OrderedMap.find?_map, OrderedMap.find?_map, Option.map_map]
  cases groups.find? vertex with
  | none => rfl
  | some n => exact congrArg some List.length_replicate

theorem parallelisms_fill (p : Pending) (vertex : VertexId) (report : Report) :
    (p.fill vertex report).groups.map List.length = p.groups.map List.length := by
  refine OrderedMap.ext_find? (fun v => ?_)
  show ((p.groups.modify vertex _).map List.length).find? v = _
  rw [OrderedMap.find?_map, OrderedMap.find?_map, OrderedMap.find?_modify]
  by_cases hv : v = vertex
  · rw [if_pos hv, Option.map_map]
    cases p.groups.find? v with
    | none => rfl
    | some slots => exact congrArg some List.length_set
  · rw [if_neg hv]

theorem total_eq {p : Pending} {groups : OrderedMap VertexId Nat}
    (h : p.groups.map List.length = groups) : p.total = sumOf groups.values := by
  rw [← h, total, OrderedMap.values, OrderedMap.values, OrderedMap.map, List.map_map,
    List.map_map]
  rfl

/-! ## The reports that were taken -/

/-- What a record of the given groups holds when it took the given reports. -/
structure Holds (groups : OrderedMap VertexId Nat) (taken : List (VertexId × Report))
    (p : Pending) : Prop where
  /-- It has the groups, with as many slots as they have subtasks. -/
  parallelisms : p.groups.map List.length = groups
  /-- In a slot is the report that was taken for it. -/
  slots : ∀ vertex subtask report, p.slot? vertex subtask = some (some report) ↔
    (vertex, report) ∈ taken ∧ report.subtask = subtask
  /-- No two were taken for one slot. -/
  distinct : (taken.map slotOf).Nodup
  /-- They are counted. -/
  count : p.count = taken.length
  /-- None was acknowledged later than the record has it. -/
  bound : ∀ r ∈ taken, r.2.ackTime ≤ p.latest
  /-- One was acknowledged then, if there is any. -/
  attained : (taken = [] ∧ p.latest = 0) ∨ ∃ r ∈ taken, r.2.ackTime = p.latest

variable {groups : OrderedMap VertexId Nat} {taken : List (VertexId × Report)} {p : Pending}

theorem holds_new (id trigger : Nat) (properties : Properties)
    (groups : OrderedMap VertexId Nat) : Holds groups [] (new id trigger properties groups) where
  parallelisms := parallelisms_new id trigger properties groups
  slots vertex subtask report := by
    rw [slot?_new]
    cases groups.find? vertex with
    | none => simp
    | some n =>
      rw [Option.bind_some]
      split <;> simp
  distinct := List.nodup_nil
  count := rfl
  bound _ h := absurd h List.not_mem_nil
  attained := .inl ⟨rfl, rfl⟩

/-- An empty slot is one that no report was taken for. -/
theorem Holds.slotOf_not_mem (h : Holds groups taken p) {vertex : VertexId} {report : Report}
    (hempty : p.slot? vertex report.subtask = some none) :
    slotOf (vertex, report) ∉ taken.map slotOf := by
  intro hmem
  obtain ⟨⟨v, earlier⟩, hearlier, he⟩ := List.mem_map.mp hmem
  obtain ⟨rfl, hsubtask⟩ := Prod.mk.inj he
  rw [(h.slots v report.subtask earlier).mpr ⟨hearlier, hsubtask⟩] at hempty
  cases Option.some.inj hempty

/-- **Preserved by every report that is taken.** -/
theorem holds_fill (h : Holds groups taken p) {vertex : VertexId} {report : Report}
    (hempty : p.slot? vertex report.subtask = some none) :
    Holds groups (taken ++ [(vertex, report)]) (p.fill vertex report) := by
  have hnew := h.slotOf_not_mem hempty
  refine ⟨(parallelisms_fill p vertex report).trans h.parallelisms, fun v i r => ?_, ?_, ?_,
    fun r hr => ?_, .inr ?_⟩
  · rw [slot?_fill hempty, List.mem_append, List.mem_singleton]
    by_cases hslot : v = vertex ∧ i = report.subtask
    · obtain ⟨rfl, rfl⟩ := hslot
      rw [if_pos ⟨rfl, rfl⟩]
      constructor
      · intro he
        obtain rfl := Option.some.inj (Option.some.inj he)
        exact ⟨.inr rfl, rfl⟩
      · rintro ⟨hmem | he, hsubtask⟩
        · -- the slot was empty, so none that was taken is for it
          refine absurd (List.mem_map.mpr ⟨_, hmem, ?_⟩) hnew
          exact Prod.ext rfl hsubtask
        · rw [(Prod.mk.inj he).2]
    · rw [if_neg hslot, h.slots]
      constructor
      · exact fun ⟨hmem, hsubtask⟩ => ⟨.inl hmem, hsubtask⟩
      · rintro ⟨hmem | he, hsubtask⟩
        · exact ⟨hmem, hsubtask⟩
        · obtain ⟨rfl, rfl⟩ := Prod.mk.inj he
          exact absurd ⟨rfl, hsubtask.symm⟩ hslot
  · rw [List.map_append]
    refine List.nodup_append.mpr ⟨h.distinct, List.nodup_singleton _, fun a ha b hb hab => ?_⟩
    exact hnew (List.mem_singleton.mp hb ▸ hab ▸ ha)
  · rw [List.length_append, ← h.count]
    rfl
  · show r.2.ackTime ≤ max p.latest report.ackTime
    rcases List.mem_append.mp hr with hr | hr
    · exact Nat.le_trans (h.bound r hr) (Nat.le_max_left _ _)
    · rw [List.mem_singleton.mp hr]
      exact Nat.le_max_right _ _
  · show ∃ r ∈ _, _ = max p.latest report.ackTime
    rcases Nat.le_total p.latest report.ackTime with hle | hle
    · refine ⟨_, List.mem_append_right _ List.mem_cons_self, ?_⟩
      exact (Nat.max_eq_right hle).symm
    · rw [Nat.max_eq_left hle]
      rcases h.attained with ⟨-, hzero⟩ | ⟨r, hr, hack⟩
      · refine ⟨_, List.mem_append_right _ List.mem_cons_self, ?_⟩
        show report.ackTime = p.latest
        omega
      · exact ⟨r, List.mem_append_left _ hr, hack⟩

/-! ## What is listed -/

/-- A list of the given groups that has exactly the given reports. -/
structure Lists (groups : OrderedMap VertexId Nat) (taken : List (VertexId × Report))
    (listed : List GroupReports) : Prop where
  /-- The groups are those, in the order of their ids. -/
  vertices : listed.map (fun g => (g.vertex, g.parallelism)) = groups.entries
  /-- A group has the reports for it, each as often as it is there. -/
  reports : ∀ g ∈ listed, g.reports.Perm ((taken.filter (·.1 = g.vertex)).map Prod.snd)
  /-- Every report is for one of the groups. -/
  known : ∀ r ∈ taken, r.1 ∈ groups.keys
  /-- The reports of a group are in the order of its subtasks, no two of the same. -/
  increasing : ∀ g ∈ listed, g.reports.Pairwise (·.subtask < ·.subtask)
  /-- They are of subtasks that the group has. -/
  bounded : ∀ g ∈ listed, ∀ r ∈ g.reports, r.subtask < g.parallelism

theorem mem_allGroups_iff (p : Pending) (g : GroupReports) :
    g ∈ p.allGroups ↔ ∃ slots, p.groups.find? g.vertex = some slots ∧ groupOf g.vertex slots = g := by
  rw [allGroups, List.mem_map]
  constructor
  · rintro ⟨⟨vertex, slots⟩, hmem, rfl⟩
    exact ⟨slots, (p.groups.find?_eq_some_iff vertex slots).mpr hmem, rfl⟩
  · rintro ⟨slots, hfind, he⟩
    exact ⟨_, (p.groups.find?_eq_some_iff g.vertex slots).mp hfind, he⟩

/-- Asking for one group gives the one that is listed. -/
theorem group?_eq (p : Pending) (vertex : VertexId) :
    p.group? vertex = p.allGroups.find? (fun g => g.vertex = vertex) := by
  cases hlisted : p.allGroups.find? (fun g => g.vertex = vertex) with
  | some g =>
    obtain ⟨slots, hslots, he⟩ := (p.mem_allGroups_iff g).mp (List.mem_of_find?_eq_some hlisted)
    have hvertex := List.find?_some (p := fun g : GroupReports => g.vertex = vertex) hlisted
    obtain rfl := of_decide_eq_true hvertex
    rw [group?, hslots]
    exact congrArg some he
  | none =>
    cases hslots : p.groups.find? vertex with
    | none => rw [group?, hslots]; rfl
    | some slots =>
      have hmem : groupOf vertex slots ∈ p.allGroups :=
        (p.mem_allGroups_iff _).mpr ⟨slots, hslots, rfl⟩
      exact absurd (decide_eq_true rfl) (List.find?_eq_none.mp hlisted _ hmem)

theorem mem_reports_iff {vertex : VertexId} {slots : Slots} {report : Report} :
    report ∈ (groupOf vertex slots).reports ↔ ∃ i : Nat, slots[i]? = some (some report) := by
  show report ∈ slots.filterMap (fun slot => slot) ↔ _
  rw [List.mem_filterMap]
  constructor
  · rintro ⟨slot, hmem, rfl⟩
    exact List.mem_iff_getElem?.mp hmem
  · rintro ⟨i, hi⟩
    exact ⟨_, List.mem_of_getElem? hi, rfl⟩

/-- The reports of the slots come in the order of the slots. -/
theorem increasing_reports {vertex : VertexId} {slots : Slots}
    (h : ∀ (i : Nat) (r : Report), slots[i]? = some (some r) → r.subtask = i) :
    (groupOf vertex slots).reports.Pairwise (·.subtask < ·.subtask) := by
  show (slots.filterMap (fun slot => slot)).Pairwise _
  rw [List.pairwise_filterMap, List.pairwise_iff_getElem]
  intro i j hi hj hlt a ha b hb
  have hai := h i a (by rw [List.getElem?_eq_getElem hi, ha])
  have hbj := h j b (by rw [List.getElem?_eq_getElem hj, hb])
  omega

theorem nodup_of_increasing {reports : List Report}
    (h : reports.Pairwise (·.subtask < ·.subtask)) : reports.Nodup :=
  h.imp (fun hlt he => Nat.ne_of_lt hlt (congrArg Report.subtask he))

/-- A report is in its group exactly if it was taken. -/
theorem Holds.mem_reports (h : Holds groups taken p) {g : GroupReports} (hg : g ∈ p.allGroups)
    (report : Report) : report ∈ g.reports ↔ (g.vertex, report) ∈ taken := by
  obtain ⟨slots, hfind, he⟩ := (p.mem_allGroups_iff g).mp hg
  have hslot (i : Nat) : p.slot? g.vertex i = slots[i]? := by
    rw [slot?, hfind, Option.bind_some]
  rw [← he, mem_reports_iff]
  show (∃ i : Nat, slots[i]? = some (some report)) ↔ (g.vertex, report) ∈ taken
  constructor
  · rintro ⟨i, hi⟩
    exact ((h.slots g.vertex i report).mp ((hslot i).trans hi)).1
  · intro hmem
    exact ⟨_, (hslot _).symm.trans ((h.slots g.vertex report.subtask report).mpr ⟨hmem, rfl⟩)⟩

/-- A report that was taken has a slot, and so a group and a place in it. -/
theorem Holds.slots_of_mem (h : Holds groups taken p) {r : VertexId × Report} (hr : r ∈ taken) :
    ∃ slots, p.groups.find? r.1 = some slots ∧ slots[r.2.subtask]? = some (some r.2) := by
  have hslot := (h.slots r.1 r.2.subtask r.2).mpr ⟨hr, rfl⟩
  exact Option.bind_eq_some_iff.mp hslot

theorem Holds.increasing (h : Holds groups taken p) {g : GroupReports} (hg : g ∈ p.allGroups) :
    g.reports.Pairwise (·.subtask < ·.subtask) := by
  obtain ⟨slots, hfind, he⟩ := (p.mem_allGroups_iff g).mp hg
  rw [← he]
  refine increasing_reports (fun i r hi => ((h.slots g.vertex i r).mp ?_).2)
  rw [slot?, hfind, Option.bind_some, hi]

/-- A group has the reports that were taken for it, each as often as it was taken. -/
theorem Holds.reports_perm (h : Holds groups taken p) {g : GroupReports} (hg : g ∈ p.allGroups) :
    g.reports.Perm ((taken.filter (·.1 = g.vertex)).map Prod.snd) := by
  have hnodup : ((taken.filter (·.1 = g.vertex)).map Prod.snd).Nodup := by
    refine List.Nodup.map_on (fun a ha b hb he => Prod.ext ?_ he)
      ((List.Nodup.of_map slotOf h.distinct).filter _)
    have hav := of_decide_eq_true (List.mem_filter.mp ha).2
    have hbv := of_decide_eq_true (List.mem_filter.mp hb).2
    rw [hav, hbv]
  refine (List.perm_ext_iff_of_nodup (nodup_of_increasing (h.increasing hg)) hnodup).mpr
    (fun report => ?_)
  rw [h.mem_reports hg, List.mem_map]
  constructor
  · exact fun hmem => ⟨_, List.mem_filter.mpr ⟨hmem, decide_eq_true rfl⟩, rfl⟩
  · rintro ⟨⟨v, r⟩, hmem, rfl⟩
    obtain ⟨hmem, hv⟩ := List.mem_filter.mp hmem
    rw [← show v = g.vertex from of_decide_eq_true hv]
    exact hmem

/-- **What is listed are the groups with the reports that were taken.** -/
theorem Holds.lists (h : Holds groups taken p) : Lists groups taken p.allGroups where
  vertices := by
    rw [← h.parallelisms, allGroups, List.map_map]
    rfl
  reports _ hg := h.reports_perm hg
  known r hr := by
    obtain ⟨slots, hfind, -⟩ := h.slots_of_mem hr
    rw [OrderedMap.mem_keys_iff]
    refine ⟨slots.length, ?_⟩
    rw [← h.parallelisms, OrderedMap.find?_map, hfind]
    rfl
  increasing _ hg := h.increasing hg
  bounded g hg r hr := by
    obtain ⟨slots, hfind, hat⟩ := h.slots_of_mem ((h.mem_reports hg r).mp hr)
    obtain ⟨slots', hfind', he⟩ := (p.mem_allGroups_iff g).mp hg
    obtain rfl := Option.some.inj (hfind.symm.trans hfind')
    rw [← he]
    exact (List.getElem?_eq_some_iff.mp hat).1

/-- **All groups together have what was taken.** -/
theorem Lists.perm {listed : List GroupReports} (h : Lists groups taken listed)
    (hnodup : taken.Nodup) :
    (listed.flatMap (fun g => g.reports.map (g.vertex, ·))).Perm taken := by
  have hkeys : listed.map (·.vertex) = groups.keys := by
    rw [OrderedMap.keys, ← h.vertices, List.map_map]
    rfl
  have hmem (r : VertexId × Report) :
      r ∈ listed.flatMap (fun g => g.reports.map (g.vertex, ·)) ↔ r ∈ taken := by
    rw [List.mem_flatMap]
    constructor
    · rintro ⟨g, hg, hr⟩
      obtain ⟨report, hreport, rfl⟩ := List.mem_map.mp hr
      obtain ⟨s, hs, rfl⟩ := List.mem_map.mp ((h.reports g hg).mem_iff.mp hreport)
      obtain ⟨hs, hvertex⟩ := List.mem_filter.mp hs
      rw [← show s.1 = g.vertex from of_decide_eq_true hvertex]
      exact hs
    · intro hr
      have hknown := h.known r hr
      rw [← hkeys] at hknown
      obtain ⟨g, hg, hvertex⟩ := List.mem_map.mp hknown
      refine ⟨g, hg, List.mem_map.mpr ⟨r.2, ?_, Prod.ext hvertex rfl⟩⟩
      refine (h.reports g hg).mem_iff.mpr (List.mem_map.mpr ⟨r, ?_, rfl⟩)
      exact List.mem_filter.mpr ⟨hr, decide_eq_true hvertex.symm⟩
  refine (List.perm_ext_iff_of_nodup (List.nodup_flatMap.mpr ⟨fun g hg => ?_, ?_⟩) hnodup).mpr
    hmem
  · exact (nodup_of_increasing (h.increasing g hg)).map (fun a b he => (Prod.mk.inj he).2)
  · -- what is listed in different groups is different
    have hdiffer : listed.Pairwise (fun g g' => g.vertex ≠ g'.vertex) :=
      List.pairwise_map.mp (hkeys ▸ groups.nodup_keys)
    refine hdiffer.imp (fun {g g'} hne r hr hr' => ?_)
    obtain ⟨_, -, rfl⟩ := List.mem_map.mp hr
    obtain ⟨_, -, he⟩ := List.mem_map.mp hr'
    exact hne (Prod.mk.inj he).1.symm

end Pending

/-! ## The running figures and the totals -/

namespace Report

/-- Of the given reports this is one that was acknowledged last, if there are any. -/
structure Last (reports : List Report) (last : Option Report) : Prop where
  none_iff : last = none ↔ reports = []
  mem : ∀ r, last = some r → r ∈ reports
  bound : ∀ r, last = some r → ∀ s ∈ reports, s.ackTime ≤ r.ackTime

theorem last_nil : Last [] none where
  none_iff := ⟨fun _ => rfl, fun _ => rfl⟩
  mem _ h := absurd h.symm (Option.some_ne_none _)
  bound _ h := absurd h.symm (Option.some_ne_none _)

/-- Of two that were last among some reports, the later one is among all of them. -/
theorem Last.of_le {xs ys all : List Report} {a b : Report} (hx : Last xs (some a))
    (hy : Last ys (some b)) (hall : ∀ r, r ∈ all ↔ r ∈ xs ∨ r ∈ ys) (hle : a.ackTime ≤ b.ackTime) :
    Last all (some b) where
  none_iff := by
    have hb := (hall b).mpr (.inr (hy.mem b rfl))
    exact ⟨nofun, fun hnil => absurd (hnil ▸ hb) List.not_mem_nil⟩
  mem r hr := by
    obtain rfl := Option.some.inj hr
    exact (hall b).mpr (.inr (hy.mem b rfl))
  bound r hr s hs := by
    obtain rfl := Option.some.inj hr
    rcases (hall s).mp hs with hs | hs
    · exact Nat.le_trans (hx.bound a rfl s hs) hle
    · exact hy.bound b rfl s hs

theorem last_singleton (r : Report) : Last [r] (some r) where
  none_iff := ⟨nofun, nofun⟩
  mem s hs := by
    obtain rfl := Option.some.inj hs
    exact List.mem_cons_self
  bound s hs t ht := by
    obtain rfl := Option.some.inj hs
    exact Nat.le_of_eq (congrArg ackTime (List.mem_singleton.mp ht))

theorem Last.later {xs : List Report} {a : Report} (h : Last xs (some a)) (b : Report) :
    Last (xs ++ [b]) (some (Report.later a b)) := by
  have hall (r : Report) : r ∈ xs ++ [b] ↔ r ∈ xs ∨ r ∈ [b] := List.mem_append
  unfold Report.later
  split
  · rename_i hle
    exact h.of_le (last_singleton b) hall hle
  · rename_i hlt
    exact (last_singleton b).of_le h (fun r => (hall r).trans or_comm)
      (Nat.le_of_lt (Nat.not_le.mp hlt))

theorem last_latest? (reports : List Report) : Last reports (latest? reports) := by
  -- the reports so far and the last of them, however many are to come
  have continued : ∀ (rest xs : List Report) (a : Report), Last xs (some a) →
      Last (xs ++ rest) (some (rest.foldl later a)) := by
    intro rest
    induction rest with
    | nil =>
      intro xs a h
      rwa [List.append_nil]
    | cons b rest ih =>
      intro xs a h
      rw [List.append_cons]
      exact ih _ _ (h.later b)
  cases reports with
  | nil => exact last_nil
  | cons r rest => exact continued rest [r] r (last_singleton r)

theorem Last.latestOf {xs ys : List Report} {a b : Option Report} (hx : Last xs a)
    (hy : Last ys b) : Last (xs ++ ys) (Acknowledged.latestOf a b) := by
  have hall (r : Report) : r ∈ xs ++ ys ↔ r ∈ xs ∨ r ∈ ys := List.mem_append
  cases a with
  | none =>
    rw [hx.none_iff.mp rfl, List.nil_append]
    cases b <;> exact hy
  | some a =>
    cases b with
    | none =>
      rw [hy.none_iff.mp rfl, List.append_nil]
      exact hx
    | some b =>
      rw [Acknowledged.latestOf]
      split
      · rename_i hlt
        exact hx.of_le hy hall (Nat.le_of_lt hlt)
      · rename_i hle
        exact hy.of_le hx (fun r => (hall r).trans or_comm) (Nat.not_lt.mp hle)

/-- The last acknowledgement of all groups is the last of all their reports. -/
theorem last_ofGroups (groups : List GroupReports) :
    Last (groups.flatMap (·.reports)) (Acknowledged.ofGroups groups).latest := by
  have continued : ∀ (groups : List GroupReports) (xs : List Report) (a : Option Report),
      Last xs a → Last (xs ++ groups.flatMap (·.reports))
        ((groups.map (·.latest?)).foldl Acknowledged.latestOf a) := by
    intro groups
    induction groups with
    | nil =>
      intro xs a h
      rw [List.flatMap_nil, List.append_nil]
      exact h
    | cons g rest ih =>
      intro xs a h
      rw [List.flatMap_cons, ← List.append_assoc]
      exact ih _ _ (h.latestOf (last_latest? g.reports))
  exact continued groups [] none last_nil

end Report

theorem Acknowledged.count_ofGroups (groups : List GroupReports) :
    (ofGroups groups).count = (groups.flatMap (·.reports)).length := by
  rw [List.length_flatMap]
  rfl

namespace Pending

variable {groups : OrderedMap VertexId Nat} {taken : List (VertexId × Report)} {p : Pending}

theorem Holds.nodup (h : Holds groups taken p) : taken.Nodup := List.Nodup.of_map slotOf h.distinct

/-- The reports of all groups are those that were taken. -/
theorem Holds.perm (h : Holds groups taken p) :
    (p.allGroups.flatMap (·.reports)).Perm (taken.map Prod.snd) := by
  have hperm := (h.lists.perm h.nodup).map Prod.snd
  rw [List.map_flatMap] at hperm
  simpa only [List.map_map, Function.comp_def, List.map_id'] using hperm

theorem Holds.last (h : Holds groups taken p) :
    Report.Last (taken.map Prod.snd) p.acknowledged.latest := by
  have hlast := Report.last_ofGroups p.allGroups
  have hmem (r : Report) := h.perm.mem_iff (a := r)
  refine ⟨hlast.none_iff.trans ?_, fun r hr => (hmem r).mp (hlast.mem r hr),
    fun r hr s hs => hlast.bound r hr s ((hmem s).mpr hs)⟩
  rw [← List.length_eq_zero_iff, h.perm.length_eq, List.length_eq_zero_iff]

/-- The latest time is that of the last acknowledgement. -/
theorem Holds.latest_eq (h : Holds groups taken p) {last : Report}
    (hlatest : p.acknowledged.latest = some last) : p.latest = last.ackTime := by
  obtain ⟨r, hr, rfl⟩ := List.mem_map.mp (h.last.mem last hlatest)
  refine Nat.le_antisymm ?_ (h.bound r hr)
  rcases h.attained with ⟨hnil, -⟩ | ⟨s, hs, hack⟩
  · rw [hnil] at hr
    exact absurd hr List.not_mem_nil
  · rw [← hack]
    exact h.last.bound _ hlatest s.2 (List.mem_map_of_mem hs)

/-- **The running figures are those of the totals.** -/
theorem Holds.agrees (h : Holds groups taken p) :
    p.count = p.acknowledged.count ∧
      p.latest = (p.acknowledged.latest.map (·.ackTime)).getD 0 ∧
      p.latestAck? = p.acknowledged.latest.map (·.ackTime) := by
  have hcount : p.count = p.acknowledged.count := by
    rw [acknowledged, Acknowledged.count_ofGroups, h.perm.length_eq, List.length_map, h.count]
  refine ⟨hcount, ?_⟩
  unfold latestAck?
  cases hlatest : p.acknowledged.latest with
  | none =>
    -- then nothing was taken
    have htaken : taken = [] := List.map_eq_nil_iff.mp (h.last.none_iff.mp hlatest)
    rw [if_pos (by rw [h.count, htaken]; rfl)]
    rcases h.attained with ⟨-, hzero⟩ | ⟨r, hr, -⟩
    · exact ⟨hzero, rfl⟩
    · rw [htaken] at hr
      exact absurd hr List.not_mem_nil
  | some last =>
    have hpositive : p.count ≠ 0 := by
      rw [h.count, ← List.length_map Prod.snd]
      exact Nat.ne_of_gt (List.length_pos_of_mem (h.last.mem last hlatest))
    rw [if_neg hpositive, h.latest_eq hlatest]
    exact ⟨rfl, rfl⟩

end Pending

end CheckpointLedger
