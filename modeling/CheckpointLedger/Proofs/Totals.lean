import CheckpointLedger.Proofs.Filled

/-!
# Totals over all groups at once

The totals of a record are made in two steps, first within each group and then over the groups.
Here they are compared with what the acknowledgements of all groups come to as **one flat list**.

For a sum this means that cutting it in every group, and again over the groups, is cutting it
once. For the last acknowledgement it is about ties. Within a group the later of two in the list
takes over, which has the greater index, and among groups the earlier one stays, which has the
smaller id. Both are one order on acknowledgements (`YieldsTo`), and the last is the greatest by
it: each of the two folds keeps the greatest of what it has gone through, since the reports come
by index and the groups by id.

The duration is that of the greatest time less the trigger, or the greatest of all durations:
subtraction that stops at zero keeps the order.
-/

namespace CheckpointLedger

/--
Whether an acknowledgement gives way to another one as the last: that is later, or at the same
time and of a smaller group, or of the same group and not of a smaller subtask.
-/
def YieldsTo (s r : VertexId × Report) : Prop :=
  s.2.ackTime < r.2.ackTime ∨
    s.2.ackTime = r.2.ackTime ∧
      (r.1.value < s.1.value ∨ r.1.value = s.1.value ∧ s.2.subtask ≤ r.2.subtask)

/-! ## Within a group -/

namespace Report

theorem latest?_concat (xs : List Report) (b : Report) :
    latest? (xs ++ [b]) = some (match latest? xs with | none => b | some a => later a b) := by
  cases xs with
  | nil => rfl
  | cons r rest => simp [latest?, List.foldl_append]

/-- Of all reports at the latest time it is the one with the greatest index. -/
theorem subtask_le_of_latest? {reports : List Report} {r : Report}
    (h : reports.Pairwise (·.subtask < ·.subtask)) (hr : latest? reports = some r) :
    ∀ s ∈ reports, s.ackTime = r.ackTime → s.subtask ≤ r.subtask := by
  induction reports using List.reverseRecOn generalizing r with
  | nil => intro s hs; exact absurd hs List.not_mem_nil
  | append_singleton xs b ih =>
    intro s hs hack
    obtain ⟨hxs, -, hlt⟩ := List.pairwise_append.mp h
    have hbelow : ∀ s ∈ xs, s.subtask < b.subtask := fun s hs => hlt s hs b List.mem_cons_self
    rw [latest?_concat] at hr
    cases hprevious : latest? xs with
    | none =>
      rw [(last_latest? xs).none_iff.mp hprevious] at hs
      simp_all
    | some a =>
      rw [hprevious] at hr
      obtain rfl : later a b = r := Option.some.inj hr
      by_cases hle : a.ackTime ≤ b.ackTime
      · -- the new one takes over, and has the greatest index of all
        rw [later, if_pos hle]
        rcases List.mem_append.mp hs with hs | hs
        · exact Nat.le_of_lt (hbelow s hs)
        · obtain rfl := List.mem_singleton.mp hs
          exact Nat.le_refl _
      · rw [later, if_neg hle] at hack ⊢
        rcases List.mem_append.mp hs with hs | hs
        · exact ih hxs hprevious s hs hack
        · obtain rfl := List.mem_singleton.mp hs
          omega

/-- A figure that does not go down with the time is greatest in the last report. -/
theorem Last.max?_map {reports : List Report} {last : Option Report} (h : Last reports last)
    {figure : Report → Nat} (hmono : ∀ a b, a.ackTime ≤ b.ackTime → figure a ≤ figure b) :
    (reports.map figure).max? = last.map figure := by
  cases last with
  | none =>
    rw [h.none_iff.mp rfl]
    rfl
  | some r =>
    refine List.max?_eq_some_iff.mpr ⟨List.mem_map_of_mem (h.mem r rfl), ?_⟩
    rintro n hn
    obtain ⟨s, hs, rfl⟩ := List.mem_map.mp hn
    exact hmono s r (h.bound r rfl s hs)

end Report

/-! ## Over the groups -/

theorem YieldsTo.ackTime_le {s r : VertexId × Report} (h : YieldsTo s r) :
    s.2.ackTime ≤ r.2.ackTime := by
  rcases h with hlt | ⟨heq, -⟩
  · exact Nat.le_of_lt hlt
  · exact Nat.le_of_eq heq

/-- Of some acknowledgements this is the one that all others give way to, if there are any. -/
structure Foremost (rs : List (VertexId × Report)) (last : Option Report) : Prop where
  none_iff : last = none ↔ rs = []
  greatest : ∀ r, last = some r → ∃ vertex, (vertex, r) ∈ rs ∧ ∀ s ∈ rs, YieldsTo s (vertex, r)

theorem foremost_of_mem {rs : List (VertexId × Report)} {vertex : VertexId} {r : Report}
    (hmem : (vertex, r) ∈ rs) (hall : ∀ s ∈ rs, YieldsTo s (vertex, r)) :
    Foremost rs (some r) where
  none_iff := ⟨nofun, fun hnil => absurd (hnil ▸ hmem) List.not_mem_nil⟩
  greatest r' hr := by
    obtain rfl := Option.some.inj hr
    exact ⟨vertex, hmem, hall⟩

/-- Within a group it is the last one by `Report.later`. -/
theorem foremost_group {g : GroupReports} (h : g.reports.Pairwise (·.subtask < ·.subtask)) :
    Foremost (g.reports.map (g.vertex, ·)) g.latest? where
  none_iff := by
    rw [List.map_eq_nil_iff]
    exact (Report.last_latest? g.reports).none_iff
  greatest r hr := by
    have hlast := Report.last_latest? g.reports
    refine ⟨g.vertex, List.mem_map_of_mem (hlast.mem r hr), ?_⟩
    intro s hs
    obtain ⟨s, hs', rfl⟩ := List.mem_map.mp hs
    rcases Nat.lt_or_eq_of_le (hlast.bound r hr s hs') with hlt | heq
    · exact .inl hlt
    · exact .inr ⟨heq, .inr ⟨rfl, Report.subtask_le_of_latest? h hr s hs' heq⟩⟩

/-- **Of two groups it is the earlier one**, unless the one of the greater id is later. -/
theorem Foremost.latestOf {xs ys : List (VertexId × Report)} {a b : Option Report}
    (hx : Foremost xs a) (hy : Foremost ys b) (hlt : ∀ x ∈ xs, ∀ y ∈ ys, x.1.value < y.1.value) :
    Foremost (xs ++ ys) (Acknowledged.latestOf a b) := by
  cases a with
  | none =>
    rw [hx.none_iff.mp rfl, List.nil_append]
    cases b <;> exact hy
  | some c =>
    cases b with
    | none =>
      rw [hy.none_iff.mp rfl, List.append_nil]
      exact hx
    | some n =>
      obtain ⟨v, hv, hallx⟩ := hx.greatest c rfl
      obtain ⟨w, hw, hally⟩ := hy.greatest n rfl
      rw [Acknowledged.latestOf]
      split
      · rename_i hlater
        refine foremost_of_mem (List.mem_append_right _ hw) (fun s hs => ?_)
        rcases List.mem_append.mp hs with hs | hs
        · exact .inl (Nat.lt_of_le_of_lt (hallx s hs).ackTime_le hlater)
        · exact hally s hs
      · rename_i hnot
        refine foremost_of_mem (List.mem_append_left _ hv) (fun s hs => ?_)
        rcases List.mem_append.mp hs with hs | hs
        · exact hallx s hs
        · -- at the same time the id decides
          have hle := Nat.le_trans (hally s hs).ackTime_le (Nat.not_lt.mp hnot)
          rcases Nat.lt_or_eq_of_le hle with hless | heq
          · exact .inl hless
          · exact .inr ⟨heq, .inl (hlt _ hv s hs)⟩

/-- **Group by group, what is kept is what all others give way to.** -/
theorem foremost_ofGroups {gs : List GroupReports}
    (hgroups : gs.Pairwise (·.vertex.value < ·.vertex.value))
    (hreports : ∀ g ∈ gs, g.reports.Pairwise (·.subtask < ·.subtask)) :
    Foremost (gs.flatMap (fun g => g.reports.map (g.vertex, ·)))
      (Acknowledged.ofGroups gs).latest := by
  induction gs using List.reverseRecOn with
  | nil => exact ⟨by simp [Acknowledged.ofGroups], by intro r hr; cases hr⟩
  | append_singleton gs g ih =>
    obtain ⟨hgs, -, hlt⟩ := List.pairwise_append.mp hgroups
    have hlatest : (Acknowledged.ofGroups (gs ++ [g])).latest =
        Acknowledged.latestOf (Acknowledged.ofGroups gs).latest g.latest? := by
      simp [Acknowledged.ofGroups, List.foldl_append]
    rw [hlatest, List.flatMap_append, List.flatMap_singleton]
    refine (ih hgs (fun g hg => hreports g (List.mem_append_left _ hg))).latestOf
      (foremost_group (hreports g (List.mem_append_right _ List.mem_cons_self))) ?_
    intro x hx y hy
    obtain ⟨g', hg', hx⟩ := List.mem_flatMap.mp hx
    obtain ⟨_, -, rfl⟩ := List.mem_map.mp hx
    obtain ⟨_, -, rfl⟩ := List.mem_map.mp hy
    exact hlt g' hg' g List.mem_cons_self

/-! ## The flat list -/

namespace Pending

variable {groups : OrderedMap VertexId Nat} {taken : List (VertexId × Report)} {p : Pending}

/-- All acknowledgements of a record, each with its group. -/
def acknowledgements (p : Pending) : List (VertexId × Report) :=
  p.allGroups.flatMap (fun g => g.reports.map (g.vertex, ·))

/-- The sum of a figure over all acknowledgements, cut once. -/
def sumOver (p : Pending) (figure : Report → Nat) : Nat :=
  min wordMax (sumOf (p.acknowledgements.map (fun r => figure r.2)))

theorem mem_acknowledgements {vertex : VertexId} {report : Report} :
    (vertex, report) ∈ p.acknowledgements ↔
      ∃ g ∈ p.allGroups, g.vertex = vertex ∧ report ∈ g.reports := by
  simp [acknowledgements, List.mem_flatMap, and_assoc, and_comm]

theorem map_snd_acknowledgements (p : Pending) :
    p.acknowledgements.map Prod.snd = p.allGroups.flatMap (·.reports) := by
  simp [acknowledgements, List.map_flatMap, Function.comp_def]

theorem sumCapped_eq_sumOver (p : Pending) (figure : Report → Nat) :
    sumCapped (p.allGroups.map (fun g => sumCapped (g.reports.map figure))) = p.sumOver figure := by
  rw [sumCapped_groups, sumOver, ← map_snd_acknowledgements, List.map_map]
  rfl

/-- The acknowledgements are what is in the slots. -/
theorem Holds.mem_acknowledgements_iff (h : Holds groups taken p) (vertex : VertexId)
    (report : Report) :
    (vertex, report) ∈ p.acknowledgements ↔ p.slot? vertex report.subtask = some (some report) := by
  rw [acknowledgements, (h.lists.perm h.nodup).mem_iff, h.slots]
  simp

theorem increasing_allGroups (p : Pending) :
    p.allGroups.Pairwise (·.vertex.value < ·.vertex.value) := by
  rw [allGroups, List.pairwise_map]
  exact p.groups.increasing.imp (fun hlt => Nat.compare_eq_lt.mp hlt)

theorem Holds.foremost (h : Holds groups taken p) :
    Foremost p.acknowledgements p.acknowledged.latest :=
  foremost_ofGroups p.increasing_allGroups (fun _ hg => h.increasing hg)

/-- **The last acknowledgement is the one that all others give way to.** -/
theorem Holds.latest_eq_some_iff (h : Holds groups taken p) (last : Report) :
    p.acknowledged.latest = some last ↔ ∃ vertex, (vertex, last) ∈ p.acknowledgements ∧
      ∀ s ∈ p.acknowledgements, YieldsTo s (vertex, last) := by
  refine ⟨h.foremost.greatest last, ?_⟩
  rintro ⟨vertex, hmem, hyield⟩
  cases hlatest : p.acknowledged.latest with
  | none =>
    have hnil := h.foremost.none_iff.mp hlatest
    exact absurd (hnil ▸ hmem) List.not_mem_nil
  | some r =>
    -- two that give way to each other are in one slot
    obtain ⟨v, hr, hyield'⟩ := h.foremost.greatest r hlatest
    have hone := hyield _ hr
    have htwo := hyield' _ hmem
    unfold YieldsTo at hone htwo
    simp only at hone htwo
    obtain ⟨hvertex, hsubtask⟩ : v.value = vertex.value ∧ r.subtask = last.subtask := by omega
    have hslot := (h.mem_acknowledgements_iff v r).mp hr
    have hslot' := (h.mem_acknowledgements_iff vertex last).mp hmem
    obtain rfl : v = vertex := by
      cases v
      cases vertex
      simp_all
    rw [hsubtask, hslot'] at hslot
    exact (Option.some.inj hslot).symm

/-- The totals of a record are those of the flat list of all acknowledgements. -/
structure Flat (p : Pending) : Prop where
  /-- The list has what is in the slots. -/
  slots : ∀ vertex report,
    (vertex, report) ∈ p.acknowledgements ↔ p.slot? vertex report.subtask = some (some report)
  /-- It has each of them once. -/
  nodup : p.acknowledgements.Nodup
  checkpointedSize : p.acknowledged.checkpointedSize = p.sumOver (·.checkpointedSize)
  stateSize : p.acknowledged.stateSize = p.sumOver (·.stateSize)
  processedData : p.acknowledged.processedData = p.sumOver (·.processedData)
  persistedData : p.acknowledged.persistedData = p.sumOver (·.persistedData)
  unaligned : p.acknowledged.unaligned = true ↔ ∃ r ∈ p.acknowledgements, r.2.unaligned = true
  latest_none : p.acknowledged.latest = none ↔ p.acknowledgements = []
  /-- All others give way to the last one. -/
  latest : ∀ last, p.acknowledged.latest = some last ↔ ∃ vertex,
    (vertex, last) ∈ p.acknowledgements ∧ ∀ s ∈ p.acknowledgements, YieldsTo s (vertex, last)
  latestAck : p.latestAck? = (p.acknowledgements.map (·.2.ackTime)).max?

/-- A figure that does not go down with the time is greatest in the last acknowledgement. -/
theorem max?_acknowledgements (p : Pending) {figure : Report → Nat}
    (hmono : ∀ a b, a.ackTime ≤ b.ackTime → figure a ≤ figure b) :
    (p.acknowledgements.map (fun r => figure r.2)).max? = p.acknowledged.latest.map figure := by
  have hflat : p.acknowledgements.map (fun r => figure r.2) =
      (p.allGroups.flatMap (·.reports)).map figure := by
    rw [← map_snd_acknowledgements, List.map_map]
    rfl
  rw [hflat]
  exact (Report.last_ofGroups p.allGroups).max?_map hmono

theorem Holds.flat (h : Holds groups taken p) : p.Flat where
  slots := h.mem_acknowledgements_iff
  nodup := (h.lists.perm h.nodup).nodup_iff.mpr h.nodup
  checkpointedSize := p.sumCapped_eq_sumOver _
  stateSize := p.sumCapped_eq_sumOver _
  processedData := p.sumCapped_eq_sumOver _
  persistedData := p.sumCapped_eq_sumOver _
  unaligned := by
    simp only [acknowledged, Acknowledged.ofGroups, GroupReports.unaligned, List.any_eq_true]
    constructor
    · rintro ⟨g, hg, r, hr, hunaligned⟩
      exact ⟨(g.vertex, r), mem_acknowledgements.mpr ⟨g, hg, rfl, hr⟩, hunaligned⟩
    · rintro ⟨⟨v, r⟩, hr, hunaligned⟩
      obtain ⟨g, hg, -, hmem⟩ := mem_acknowledgements.mp hr
      exact ⟨g, hg, r, hmem, hunaligned⟩
  latest_none := h.foremost.none_iff
  latest := h.latest_eq_some_iff
  latestAck := by
    rw [h.agrees.2.2]
    exact (p.max?_acknowledgements (fun _ _ hle => hle)).symm

end Pending

/-! ## The end of a record -/

namespace Completed

variable {c : Completed} {p : Pending}

theorem latestAck_eq (c : Completed) :
    c.latestAck = (c.acknowledged.latest.map (·.ackTime)).getD c.trigger := by
  unfold latestAck
  cases c.acknowledged.latest <;> rfl

theorem latestAck_of_gathered (h : c.toGathered = p.gathered) :
    c.latestAck = ((p.acknowledgements.map (·.2.ackTime)).max?).getD p.trigger := by
  rw [p.max?_acknowledgements (fun _ _ hle => hle), latestAck_eq, h]
  rfl

/-- The greatest of all durations is that of the greatest time. -/
theorem duration_of_gathered (h : c.toGathered = p.gathered) :
    c.duration = ((p.acknowledgements.map (·.2.duration p.trigger)).max?).getD 0 := by
  have hmono : ∀ a b : Report, a.ackTime ≤ b.ackTime →
      a.duration p.trigger ≤ b.duration p.trigger :=
    fun a b hle => Nat.sub_le_sub_right hle p.trigger
  have htrigger : c.trigger = p.trigger := by
    rw [h]
    rfl
  rw [duration, latestAck_of_gathered h, htrigger, p.max?_acknowledgements hmono,
    p.max?_acknowledgements (fun _ _ hle => hle)]
  cases p.acknowledged.latest with
  | none => exact Nat.sub_self p.trigger
  | some last => rfl

end Completed

namespace Ledger

variable {config : Config} {ops : List Operation} {handle : Handle} {p : Pending}

/--
**Totals are those of the flat list.** At any moment of any run a record has a list of all
acknowledgements of all groups, each in the list once and all others not. Each of its four sums is
that over the list, cut once; it is unaligned if one of the list is; its last acknowledgement is
the one of the list that all others give way to; and its latest time is the greatest in the list.
Whoever completes it gets a record with the same totals, whose latest time is the trigger if the
list is empty, and whose duration is the greatest one in the list, or zero.
-/
theorem totals_are_flat (h : ((new config).after ops).record? handle = some p) :
    p.Flat ∧ ∀ pointer metadataSize, p.finalized = false →
      ∃ c, (((new config).after ops).perform (.complete handle pointer metadataSize)).answer =
          .concluded (.completed c) ∧
        c.trigger = p.trigger ∧ c.acknowledged = p.acknowledged ∧
        c.latestAck = ((p.acknowledgements.map (·.2.ackTime)).max?).getD p.trigger ∧
        c.duration = ((p.acknowledgements.map (·.2.duration p.trigger)).max?).getD 0 := by
  obtain ⟨groups, taken, hholds, -⟩ := holds_of_record h
  refine ⟨hholds.flat, fun pointer metadataSize hopen => ?_⟩
  have hasked := visit_asked (r := (p.id, handle)) h
    (o := .complete handle pointer metadataSize) rfl
  rcases hasked with ⟨-, ⟨c, hanswer, hc⟩, -⟩ | ⟨hdone, -, -⟩
  · obtain rfl := Option.some.inj hc
    exact ⟨_, hanswer, rfl, rfl, Completed.latestAck_of_gathered rfl,
      Completed.duration_of_gathered rfl⟩
  · rw [hopen] at hdone
    cases hdone

/--
Two groups of two subtasks, and one report in each of the four slots: of the three that come at
the latest time, two are of the smaller group. The sum of the state sizes is more than a word.
-/
def tiedRun : List Operation :=
  [.register 3 50 (.checkpoint .never) (.ofList [(⟨30, by decide⟩, 2), (⟨20, by decide⟩, 2)]),
   .acknowledge ⟨0⟩ ⟨30, by decide⟩ ((Report.new 1 40).withSizes 7 wordMax),
   .route 3 ⟨20, by decide⟩ ((Report.new 1 40).withSizes 5 2),
   .acknowledge ⟨0⟩ ⟨20, by decide⟩ ((Report.new 0 40).withUnaligned true),
   .route 3 ⟨30, by decide⟩ (Report.new 0 30)]

/-- The last one is of the smaller group, and of its greater subtask; all came before the trigger. -/
theorem tiedRun_totals :
    ∃ p, ((new {}).after tiedRun).record? ⟨0⟩ = some p ∧ p.finalized = false ∧
      p.sumOver (·.stateSize) = wordMax ∧ p.sumOver (·.checkpointedSize) = 12 ∧
      (∃ r ∈ p.acknowledgements, r.2.unaligned = true) ∧
      (∀ s ∈ p.acknowledgements,
        YieldsTo s (⟨20, by decide⟩, (Report.new 1 40).withSizes 5 2)) ∧
      ∃ c, (((new {}).after tiedRun).perform (.complete ⟨0⟩ none 1)).answer =
        .concluded (.completed c) ∧ c.latestAck = 40 ∧ c.duration = 0 := by
  obtain ⟨hflat, hend⟩ := @totals_are_flat {} tiedRun ⟨0⟩ _ rfl
  obtain ⟨c, hanswer, -, -, hlatest, hduration⟩ := hend none 1 rfl
  obtain ⟨vertex, hmem, hyield⟩ :=
    (hflat.latest ((Report.new 1 40).withSizes 5 2)).mp rfl
  obtain rfl : vertex = ⟨20, by decide⟩ := by
    change (vertex, _) ∈ [((⟨20, by decide⟩ : VertexId), (Report.new 0 40).withUnaligned true),
      (⟨20, by decide⟩, (Report.new 1 40).withSizes 5 2), (⟨30, by decide⟩, Report.new 0 30),
      (⟨30, by decide⟩, (Report.new 1 40).withSizes 7 wordMax)] at hmem
    simpa [Report.new, Report.withSizes, Report.withUnaligned] using hmem
  refine ⟨_, rfl, rfl, hflat.stateSize.symm.trans rfl, hflat.checkpointedSize.symm.trans rfl,
    hflat.unaligned.mp rfl, ?_, c, hanswer, hlatest.trans rfl, hduration.trans rfl⟩
  exact hyield

end Ledger

end CheckpointLedger
