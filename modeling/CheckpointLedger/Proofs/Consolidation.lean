import CheckpointLedger.Proofs.Courses
import Mathlib.Algebra.BigOperators.Group.Finset.Basic
import Mathlib.Algebra.Ring.Nat
import Mathlib.Data.Finset.Lattice.Fold
import Mathlib.Order.Lattice.Nat

/-!
# What the record of a generation says

The record of a complete generation is folded together from the places of its attempts,
in the order of their ids. `Consolidates` says what the record has to be, in terms of the
course of the generation alone and without any order: the greatest end, the sum of all
durations of a name over the set of the expected attempts.

There is only one record with these properties, and a fold in any order has them
(`consolidates_ofReports`). So the order of the places is as good as any other, and so is
the order in which the attempts reported.
-/

namespace CheckpointLedger

/-! ## Totals of durations -/

namespace DurationTotals

/-- The totals of all values that were measured under one name, if there are any. -/
def ofValues (values : List Nat) : Option DurationTotals :=
  values.foldl (fun t v => some (add t v)) none

theorem ofValues_eq_none_iff (values : List Nat) : ofValues values = none ↔ values = [] := by
  rcases List.eq_nil_or_concat values with rfl | ⟨earlier, v, rfl⟩
  · exact ⟨fun _ => rfl, fun _ => rfl⟩
  · rw [List.concat_eq_append, ofValues, List.foldl_append]
    exact ⟨fun h => absurd h (Option.some_ne_none _), fun h => absurd h (by simp)⟩

theorem foldl_max_le_iff (values : List Nat) (start n : Nat) :
    values.foldl Nat.max start ≤ n ↔ start ≤ n ∧ ∀ v ∈ values, v ≤ n := by
  induction values generalizing start with
  | nil => simp
  | cons v rest ih =>
    rw [List.foldl_cons, ih, List.forall_mem_cons, ← and_assoc]
    exact and_congr_left' Nat.max_le

theorem foldl_add (values : List Nat) (t : Option DurationTotals) :
    let after := values.foldl (fun t v => some (add t v)) t
    (after.map (·.max)).getD 0 = values.foldl Nat.max ((t.map (·.max)).getD 0) ∧
      (after.map (·.sum)).getD 0 = values.foldl addCapped ((t.map (·.sum)).getD 0) := by
  induction values generalizing t with
  | nil => exact ⟨rfl, rfl⟩
  | cons v rest ih => exact ih (some (add t v))

/-- The longest is the least bound, and the sum is exact up to its ceiling. -/
theorem of_ofValues {values : List Nat} {t : DurationTotals} (h : ofValues values = some t) :
    (∀ n, t.max ≤ n ↔ ∀ v ∈ values, v ≤ n) ∧ t.sum = min wordMax (sumOf values) := by
  obtain ⟨hmax, hsum⟩ := foldl_add values none
  rw [← ofValues, h] at hmax hsum
  constructor
  · intro n
    have hle := foldl_max_le_iff values 0 n
    rw [show values.foldl Nat.max 0 = t.max from hmax.symm] at hle
    exact hle.trans (and_iff_right (Nat.zero_le n))
  · rw [← sumCapped_eq]
    exact hsum

/-- One attempt adds its value to the totals of a name, if it has one. -/
theorem find?_foldl_alter (durations : Durations) (totals : OrderedMap String DurationTotals)
    (name : String) :
    (durations.entries.foldl (fun totals d => totals.alter d.1 (fun t => some (add t d.2)))
        totals).find? name =
      (durations.find? name).toList.foldl (fun t v => some (add t v)) (totals.find? name) := by
  obtain ⟨bindings, h⟩ := durations
  show _ = (OrderedMap.findIn name bindings).toList.foldl _ _
  induction bindings generalizing totals with
  | nil => rfl
  | cons head rest ih =>
    obtain ⟨key, value⟩ := head
    rw [List.foldl_cons, ih _ (List.pairwise_cons.mp h).2]
    by_cases hname : name = key
    · subst hname
      -- the name does not come again
      rw [OrderedMap.find?_alter_self, OrderedMap.findIn_cons_self,
        OrderedMap.findIn_eq_none (OrderedMap.head_ne_of_mem h)]
      rfl
    · rw [OrderedMap.find?_alter_of_ne _ hname, OrderedMap.findIn_cons_of_ne hname]

/-- **Under a name are the totals of all values that attempts have under it.** -/
theorem find?_ofAttempts (reports : List AttemptMetrics) (name : String) :
    (ofAttempts reports).find? name =
      ofValues (reports.filterMap (·.durations.find? name)) := by
  have hfold (totals : OrderedMap String DurationTotals) :
      (reports.foldl (fun totals a => a.durations.entries.foldl
          (fun totals d => totals.alter d.1 (fun t => some (add t d.2))) totals)
        totals).find? name =
      (reports.filterMap (·.durations.find? name)).foldl (fun t v => some (add t v))
        (totals.find? name) := by
    induction reports generalizing totals with
    | nil => rfl
    | cons report rest ih =>
      rw [List.foldl_cons, ih, find?_foldl_alter]
      cases hfound : report.durations.find? name with
      | none => rw [List.filterMap_cons, hfound]; rfl
      | some value => rw [List.filterMap_cons, hfound]; rfl
  exact hfold .empty

theorem mem_keys_ofAttempts (reports : List AttemptMetrics) (name : String) :
    name ∈ (ofAttempts reports).keys ↔ ∃ r ∈ reports, name ∈ r.durations.keys := by
  have hnone : name ∉ (ofAttempts reports).keys ↔ ∀ r ∈ reports, name ∉ r.durations.keys := by
    rw [OrderedMap.not_mem_keys_iff, find?_ofAttempts, ofValues_eq_none_iff,
      List.filterMap_eq_nil_iff]
    exact forall₂_congr (fun r _ => (OrderedMap.not_mem_keys_iff _ name).symm)
  rw [← not_iff_not, hnone]
  simp only [not_exists, not_and]

theorem sumOf_filterMap {α : Type} (f : α → Option Nat) (xs : List α) :
    sumOf (xs.filterMap f) = (xs.map (fun a => (f a).getD 0)).sum := by
  induction xs with
  | nil => rfl
  | cons x rest ih =>
    rw [List.map_cons, List.sum_cons, ← ih]
    cases h : f x with
    | none => rw [List.filterMap_cons_none h]; exact (Nat.zero_add _).symm
    | some n => rw [List.filterMap_cons_some h, sumOf_cons]; rfl

/-- The totals do not change if those who did not measure count as nothing. -/
theorem of_find?_ofAttempts {reports : List AttemptMetrics} {name : String} {t : DurationTotals}
    (h : (ofAttempts reports).find? name = some t) :
    (∀ n, t.max ≤ n ↔ ∀ r ∈ reports, (r.durations.find? name).getD 0 ≤ n) ∧
      t.sum = min wordMax (reports.map (fun r => (r.durations.find? name).getD 0)).sum := by
  rw [find?_ofAttempts] at h
  obtain ⟨hmax, hsum⟩ := of_ofValues h
  refine ⟨fun n => ?_, by rw [hsum, sumOf_filterMap]⟩
  rw [hmax, List.forall_mem_filterMap]
  refine forall₂_congr (fun r _ => ?_)
  cases r.durations.find? name with
  | none => simp
  | some v => simp

end DurationTotals

/-! ## The record, without any order -/

/-- There are two ways only to end. -/
theorem InitializationStatus.eq_of_completed_iff {s t : InitializationStatus}
    (h : s = .completed ↔ t = .completed) : s = t := by
  revert h
  cases s <;> cases t <;> decide

namespace Course

/-- The attempts that are expected. -/
def expected (c : Course) : Finset AttemptId := c.attempts.toFinset

/-- The first report of an attempt, and an empty one if there is none. -/
def report (c : Course) (attempt : AttemptId) : AttemptMetrics :=
  (c.first? attempt).getD ⟨0, 0, .empty, .failed⟩

/-- What an attempt measured under a name, and nothing if it did not. -/
def value (c : Course) (name : String) (attempt : AttemptId) : Nat :=
  ((c.report attempt).durations.find? name).getD 0

/-- What the record of a generation is to say after its course. -/
structure Consolidates (c : Course) (i : Initialization) : Prop where
  start : i.start = c.start
  named : c.named?.map (fun r => (r.id, r.stateSize)) = some (i.checkpoint, i.stateSize)
  attempts : i.attempts = c.expected.card
  /-- Every expected attempt has reported. -/
  reported : ∀ a ∈ c.expected, (c.first? a).isSome
  /-- The end of the last of them, or the beginning if there are none. -/
  stop : i.stop = if c.expected = ∅ then c.start else c.expected.sup (fun a => (c.report a).stop)
  status : i.status = .completed ↔ ∀ a ∈ c.expected, (c.report a).status = .completed
  names : ∀ name, name ∈ i.durations.keys ↔
    ∃ a ∈ c.expected, name ∈ (c.report a).durations.keys
  totals : ∀ name t, i.durations.find? name = some t →
    t.max = c.expected.sup (c.value name) ∧
    t.sum = min wordMax (∑ a ∈ c.expected, c.value name a)

theorem Consolidates.unique {c : Course} {i j : Initialization} (hi : Consolidates c i)
    (hj : Consolidates c j) (h : i.generation = j.generation) : i = j := by
  have hnamed := Option.some.inj (hi.named.symm.trans hj.named)
  have hstatus := InitializationStatus.eq_of_completed_iff (hi.status.trans hj.status.symm)
  have hdurations : i.durations = j.durations := by
    refine OrderedMap.ext_find? (fun name => ?_)
    have hkeys := (hi.names name).trans (hj.names name).symm
    rw [OrderedMap.mem_keys_iff, OrderedMap.mem_keys_iff] at hkeys
    cases hs : i.durations.find? name with
    | none =>
      cases ht : j.durations.find? name with
      | none => rfl
      | some t =>
        obtain ⟨s, hs'⟩ := hkeys.mpr ⟨t, ht⟩
        rw [hs] at hs'
        cases hs'
    | some s =>
      obtain ⟨t, ht⟩ := hkeys.mp ⟨s, hs⟩
      obtain ⟨hmax, hsum⟩ := hi.totals name s hs
      obtain ⟨hmax', hsum'⟩ := hj.totals name t ht
      have hst : s = t := by
        cases s
        cases t
        rw [DurationTotals.mk.injEq]
        exact ⟨hmax.trans hmax'.symm, hsum.trans hsum'.symm⟩
      rw [ht, hst]
  cases i
  cases j
  rw [Initialization.mk.injEq]
  exact ⟨h, congrArg Prod.fst hnamed, congrArg Prod.snd hnamed, hi.start.trans hj.start.symm,
    hi.stop.trans hj.stop.symm, hstatus, hi.attempts.trans hj.attempts.symm, hdurations⟩

/-- Two courses in which the same counts. -/
structure Agrees (c d : Course) : Prop where
  start : c.start = d.start
  expected : c.expected = d.expected
  first : ∀ a ∈ c.expected, c.first? a = d.first? a
  named : c.named? = d.named?

theorem Consolidates.of_agrees {c d : Course} (h : c.Agrees d) {i : Initialization}
    (hi : Consolidates d i) : Consolidates c i := by
  have hreport : ∀ a ∈ d.expected, c.report a = d.report a := by
    intro a ha
    rw [report, report, h.first a (h.expected ▸ ha)]
  have hvalue : ∀ name, ∀ a ∈ d.expected, c.value name a = d.value name a := by
    intro name a ha
    rw [value, value, hreport a ha]
  refine ⟨h.start ▸ hi.start, h.named ▸ hi.named, h.expected ▸ hi.attempts, fun a ha => ?_, ?_,
    ?_, fun name => ?_, fun name t ht => ?_⟩
  · rw [h.first a ha]
    exact hi.reported a (h.expected ▸ ha)
  · rw [h.expected, h.start, hi.stop]
    congr 1
    exact Finset.sup_congr rfl (fun a ha => by rw [hreport a ha])
  · rw [hi.status, h.expected]
    exact forall₂_congr (fun a ha => by rw [hreport a ha])
  · rw [hi.names, h.expected]
    exact exists_congr (fun a => and_congr_right (fun ha => by rw [hreport a ha]))
  · obtain ⟨hmax, hsum⟩ := hi.totals name t ht
    rw [h.expected, Finset.sup_congr rfl (hvalue name), Finset.sum_congr rfl (hvalue name)]
    exact ⟨hmax, hsum⟩

end Course

/-! ## The record, folded in some order -/

/-- The record of a generation, folded together from the reports of its attempts. -/
def Initialization.ofReports (number start : Nat) (named : Restored)
    (reports : List AttemptMetrics) : Initialization where
  generation := number
  checkpoint := named.id
  stateSize := named.stateSize
  start := start
  stop := (reports.map (·.stop)).max?.getD start
  status := if reports.all (·.status == .completed) then .completed else .failed
  attempts := reports.length
  durations := DurationTotals.ofAttempts reports

theorem Generation.consolidate_eq (g : Generation) (named : Restored) :
    g.consolidate named = .ofReports g.number g.start named g.reports := rfl

namespace Course

/-- The greatest number in a list is the greatest over the set of what is listed. -/
theorem max?_getD_eq {order : List AttemptId} {s : Finset AttemptId} (h : order.toFinset = s)
    (f : AttemptId → Nat) (start : Nat) :
    (order.map f).max?.getD start = if s = ∅ then start else s.sup f := by
  cases hmax : (order.map f).max? with
  | none =>
    have hnil := List.map_eq_nil_iff.mp (List.max?_eq_none_iff.mp hmax)
    rw [← h, hnil]
    rfl
  | some greatest =>
    have hne : s ≠ ∅ := by
      rintro rfl
      rw [List.toFinset_eq_empty_iff] at h
      rw [h] at hmax
      cases hmax
    rw [if_neg hne, Option.getD_some]
    refine eq_of_forall_ge_iff (fun n => ?_)
    rw [List.max?_le_iff hmax, List.forall_mem_map, Finset.sup_le_iff, ← h]
    exact forall_congr' (fun a => imp_congr_left List.mem_toFinset.symm)

/-- **In whatever order the reports are folded, the record is as it is to be.** -/
theorem consolidates_ofReports {c : Course} {order : List AttemptId} (hnodup : order.Nodup)
    (horder : order.toFinset = c.expected) (hreported : ∀ a ∈ c.expected, (c.first? a).isSome)
    {named : Restored} (hnamed : c.named? = some named) (number : Nat) :
    Consolidates c (.ofReports number c.start named (order.map c.report)) := by
  have hmem (a : AttemptId) : a ∈ order ↔ a ∈ c.expected := by
    rw [← horder, List.mem_toFinset]
  refine ⟨rfl, by rw [hnamed]; rfl, ?_, hreported, ?_, ?_, fun name => ?_, fun name t ht => ?_⟩
  · -- nobody is listed twice
    show (order.map c.report).length = _
    rw [List.length_map, ← horder, List.toFinset_card_of_nodup hnodup]
  · show ((order.map c.report).map (·.stop)).max?.getD c.start = _
    rw [List.map_map]
    exact max?_getD_eq horder _ c.start
  · show (if (order.map c.report).all (·.status == .completed) then _ else _) = _ ↔ _
    have hall : (order.map c.report).all (·.status == .completed) = true ↔
        ∀ a ∈ c.expected, (c.report a).status = .completed := by
      rw [List.all_eq_true, List.forall_mem_map]
      exact forall_congr' (fun a => imp_congr (hmem a) beq_iff_eq)
    rw [← hall]
    split
    · rename_i h
      exact ⟨fun _ => h, fun _ => rfl⟩
    · rename_i h
      exact ⟨fun he => InitializationStatus.noConfusion he, fun h' => absurd h' h⟩
  · show name ∈ (DurationTotals.ofAttempts (order.map c.report)).keys ↔ _
    simp only [DurationTotals.mem_keys_ofAttempts, List.mem_map, exists_exists_and_eq_and, hmem]
  · obtain ⟨hmax, hsum⟩ := DurationTotals.of_find?_ofAttempts ht
    constructor
    · -- both have the same bounds
      refine eq_of_forall_ge_iff (fun n => ?_)
      rw [hmax, List.forall_mem_map, Finset.sup_le_iff]
      exact forall_congr' (fun a => imp_congr_left (hmem a))
    · rw [hsum, List.map_map, ← horder, List.sum_toFinset _ hnodup]
      rfl

/-- The places of a complete generation hold the first report of every attempt. -/
theorem Matches.reports_of_missing {c : Course} {e : Epoch} {g : Generation} (h : Matches c e)
    (hfollows : g.Follows e) (hmissing : g.missing = 0) :
    g.attempts.keys.toFinset = c.expected ∧ (∀ a ∈ c.expected, (c.first? a).isSome) ∧
      g.reports = g.attempts.keys.map c.report := by
  have hfind (a : AttemptId) (ha : a ∈ c.attempts) : g.attempts.find? a = some (c.first? a) := by
    rw [hfollows.find?_attempts, h.attempts, if_pos ha, h.reports a ha]
  have hkeys (a : AttemptId) : a ∈ g.attempts.keys ↔ a ∈ c.attempts := by
    rw [OrderedMap.mem_keys_iff, hfollows.expected, h.attempts]
  have hsome : ∀ a ∈ c.attempts, (c.first? a).isSome := by
    intro a ha
    rw [← Option.ne_none_iff_isSome]
    intro hnone
    exact g.missing_eq_zero_iff.mp hmissing a (hnone ▸ hfind a ha)
  refine ⟨?_, fun a ha => hsome a (List.mem_toFinset.mp ha), ?_⟩
  · ext a
    rw [expected, List.mem_toFinset, List.mem_toFinset, hkeys]
  · show (g.attempts.entries.map Prod.snd).filterMap (fun m => m) =
      (g.attempts.entries.map Prod.fst).map c.report
    rw [List.filterMap_map, List.map_map, ← List.filterMap_eq_map]
    refine List.filterMap_congr (fun b hb => ?_)
    have hb := (g.attempts.find?_eq_some_iff b.1 b.2).mpr hb
    have ha := (hkeys b.1).mp ((g.attempts.mem_keys_iff b.1).mpr ⟨b.2, hb⟩)
    obtain ⟨m, hm⟩ := Option.isSome_iff_exists.mp (hsome b.1 ha)
    have hplace : b.2 = some m := by
      rw [hfind b.1 ha, hm] at hb
      exact (Option.some.inj hb).symm
    show b.2 = some (c.report b.1)
    rw [hplace, report, hm]
    rfl

end Course

namespace Ledger

theorem consolidates_told (config : Config) (ops : List Operation) (o : Operation)
    {i : Initialization}
    (hi : (((new config).after ops).perform o).initialization? = some i) :
    ∃ c, Course.of? (ops ++ [o]) = some c ∧ Course.Consolidates c i ∧
      i.generation = ((new config).journal ops).generations := by
  have hbefore := restoring_run config ops
  have hafter := restoring_run config (ops ++ [o])
  have ht := told_perform hbefore o
  rw [after_concat] at hafter
  obtain ⟨g, named, hg, hdone, hnamed, hrecord⟩ := ht.record i hi
  obtain ⟨_, e, he, hfollows, hready⟩ := hafter.some g hg
  have hmissing := (hfollows.known_iff.mpr (hready.mp hdone)).1
  have hmatches := matches_run config (ops ++ [o])
  rw [he] at hmatches
  generalize Course.of? (ops ++ [o]) = c? at hmatches ⊢
  cases hmatches with
  | @some c _ hmatches =>
    obtain ⟨hkeys, hreported, hreports⟩ := hmatches.reports_of_missing hfollows hmissing
    have hlast : c.named? = some named := by
      rw [Course.named?, ← hmatches.restored, ← hfollows.restored, hnamed]
    refine ⟨c, rfl, ?_, (ht.number i hi).trans hbefore.generations⟩
    rw [hrecord, g.consolidate_eq, hreports, hfollows.start, hmatches.start]
    exact Course.consolidates_ofReports g.attempts.nodup_keys hkeys hreported hlast g.number

/--
**The record of a generation is the consolidation of its course.** The record that an
operation gives, after any run, is numbered as the generation that began last, and says
what it has to say after the course of that generation, of which the operation is the
last part. It is what one gets by folding the first reports of the expected attempts in
any order. And any run at all that gives a record of the same number gives this record,
if the same counts in the course of its generation: it does not matter what was done
before, nor in what order the attempts reported.
-/
theorem record_consolidates_course (config : Config) (ops : List Operation) (o : Operation)
    (i : Initialization)
    (hi : (((new config).after ops).perform o).initialization? = some i) :
    ∃ c named, Course.of? (ops ++ [o]) = some c ∧ c.named? = some named ∧
      Course.Consolidates c i ∧ i.generation = ((new config).journal ops).generations ∧
      (∀ order : List AttemptId, order.Nodup → order.toFinset = c.expected →
        i = .ofReports i.generation c.start named (order.map c.report)) ∧
      ∀ config' ops' o' i' d,
        (((new config').after ops').perform o').initialization? = some i' →
        Course.of? (ops' ++ [o']) = some d → c.Agrees d → i'.generation = i.generation →
        i' = i := by
  obtain ⟨c, hc, hconsolidates, hnumber⟩ := consolidates_told config ops o hi
  obtain ⟨named, hnamed, _⟩ := Option.map_eq_some_iff.mp hconsolidates.named
  refine ⟨c, named, hc, hnamed, hconsolidates, hnumber, fun order hnodup horder => ?_, ?_⟩
  · have hfolded := Course.consolidates_ofReports hnodup horder hconsolidates.reported hnamed
    exact hconsolidates.unique (hfolded i.generation) rfl
  · intro config' ops' o' i' d hi' hd hagrees hgeneration
    obtain ⟨d', hd', hconsolidates', _⟩ := consolidates_told config' ops' o' hi'
    obtain rfl := Option.some.inj (hd'.symm.trans hd)
    exact (hconsolidates'.of_agrees hagrees).unique hconsolidates hgeneration

/-! Two attempts report, and a checkpoint is named, in one order and in another. -/

def thirdReports : Operation :=
  .reportMetrics ⟨3, by decide⟩ ⟨10, 40, Durations.add .empty "GateRestore" wordMax, .completed⟩

def fourthReports : Operation :=
  .reportMetrics ⟨4, by decide⟩ ⟨11, 30, Durations.add .empty "GateRestore" 5, .failed⟩

def firstRun : List Operation :=
  [.beginInitialization [⟨3, by decide⟩, ⟨4, by decide⟩] 10, thirdReports,
   .reportRestored 7 (.checkpoint .never) none 100]

/-- Here another checkpoint is named before, and one of the attempts reports twice. -/
def secondRun : List Operation :=
  [.beginInitialization [⟨4, by decide⟩, ⟨3, by decide⟩] 10,
   .reportRestored 6 (.checkpoint .never) none 0, fourthReports,
   .reportMetrics ⟨4, by decide⟩ ⟨0, 90, .empty, .completed⟩,
   .reportRestored 7 (.checkpoint .never) none 100]

/-- Both runs give the same record. -/
theorem firstRun_consolidates :
    ∃ i, (((new {}).after firstRun).perform fourthReports).initialization? = some i ∧
      (((new {}).after secondRun).perform thirdReports).initialization? = some i ∧
      i.attempts = 2 ∧ i.stop = 40 ∧ i.status ≠ .completed := by
  obtain ⟨i, hi⟩ : ∃ i, (((new {}).after firstRun).perform fourthReports).initialization? =
    some i := ⟨_, rfl⟩
  obtain ⟨i', hi'⟩ : ∃ i', (((new {}).after secondRun).perform thirdReports).initialization? =
    some i' := ⟨_, rfl⟩
  obtain ⟨c, named, hc, _, hsays, hnumber, _, hany⟩ := record_consolidates_course {} _ _ i hi
  obtain ⟨d, _, hd, _, _, hnumber', _⟩ := record_consolidates_course {} _ _ i' hi'
  obtain rfl := Option.some.inj hc
  obtain rfl := Option.some.inj hd
  -- the expected attempts, their first reports and the last checkpoint are the same
  have hsame := hany {} _ _ i' _ hi' rfl ⟨rfl, by decide, by decide, rfl⟩
    (hnumber'.trans hnumber.symm)
  subst hsame
  exact ⟨_, hi, hi', hsays.attempts, hsays.stop.trans (by decide), hsays.status.not.mpr (by decide)⟩

end Ledger

end CheckpointLedger
