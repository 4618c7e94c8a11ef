import CheckpointLedger.Proofs.Consolidation
import CheckpointLedger.Proofs.LateRestores
import Mathlib.Algebra.Order.BigOperators.Group.Finset

/-!
# Durations, added up twice

An attempt measures its phases one after the other, and whatever it measures under a name is added
to what the name has. When a generation is complete, the values of its attempts are added up
again, in the order of their ids. Both sums stop at the ceiling, so a sum may be cut in one
attempt, in several, or only when they come together.

It makes no difference where. The order of the measurements does not matter, as what an attempt has
under a name is **the exact total, cut once** (`find?_ofMeasurements`); and cutting the parts of a
sum that is cut itself does not change it (`min_sum_min`). So the record of a generation has the
exact total over all measurements of all attempts, cut once (`Accumulates`).
-/

namespace CheckpointLedger

/-! ## What one attempt measures -/

namespace Durations

/-- All that was measured under a name, without a ceiling. -/
def total (name : String) (measured : List (String × Nat)) : Nat :=
  sumOf ((measured.filter (·.1 = name)).map Prod.snd)

theorem total_concat (name : String) (measured : List (String × Nat)) (m : String × Nat) :
    total name (measured ++ [m]) = total name measured + if m.1 = name then m.2 else 0 := by
  unfold total
  by_cases hname : m.1 = name <;> simp [hname, sumOf_append]

theorem total_eq_zero {name : String} {measured : List (String × Nat)}
    (h : name ∉ measured.map Prod.fst) : total name measured = 0 := by
  have hnone : measured.filter (·.1 = name) = [] := by
    refine List.filter_eq_nil_iff.mpr (fun m hm hname => h ?_)
    exact List.mem_map.mpr ⟨m, hm, of_decide_eq_true hname⟩
  rw [total, hnone]
  rfl

/-- No value and the value zero are the same here. -/
theorem getD_total (name : String) (measured : List (String × Nat)) :
    (if name ∈ measured.map Prod.fst then some (min wordMax (total name measured))
      else none).getD 0 = min wordMax (total name measured) := by
  split
  · rfl
  · rename_i hnot
    rw [total_eq_zero hnot]
    rfl

theorem total_perm (name : String) {measured reordered : List (String × Nat)}
    (h : measured.Perm reordered) : total name measured = total name reordered :=
  sumOf_perm ((h.filter _).map _)

theorem find?_add (d : Durations) (name other : String) (value : Nat) :
    (d.add name value).find? other =
      if other = name then some (addCapped ((d.find? name).getD 0) value) else d.find? other := by
  by_cases hname : other = name
  · rw [if_pos hname, hname]
    exact d.find?_alter_self name _
  · rw [if_neg hname]
    exact d.find?_alter_of_ne hname _

end Durations

open Durations

namespace AttemptMetrics

variable {start stop : Nat} {status : Option InitializationStatus}

theorem durations_concat (measured : List (String × Nat)) (m : String × Nat) :
    (ofMeasurements start stop status (measured ++ [m])).durations =
      (ofMeasurements start stop status measured).durations.add m.1 m.2 := List.foldl_concat ..

/-- **Under a name is the exact total, cut once**, if something was measured under it. -/
theorem find?_ofMeasurements (measured : List (String × Nat)) (name : String) :
    (ofMeasurements start stop status measured).durations.find? name =
      if name ∈ measured.map Prod.fst then some (min wordMax (total name measured)) else none := by
  induction measured using List.reverseRecOn with
  | nil => rfl
  | append_singleton measured m ih =>
    have hmem : name ∈ (measured ++ [m]).map Prod.fst ↔
        name ∈ measured.map Prod.fst ∨ name = m.1 := by
      simp
    rw [durations_concat, find?_add, total_concat]
    by_cases hname : name = m.1
    · -- what was there is the total so far, and nothing if there was none
      have hbefore : ((ofMeasurements start stop status measured).durations.find? m.1).getD 0 =
          min wordMax (total m.1 measured) := by
        rw [← hname, ih]
        exact getD_total name measured
      rw [if_pos hname, if_pos (hmem.mpr (.inr hname)), if_pos hname.symm, hname, hbefore,
        addCapped]
      congr 1
      omega
    · rw [if_neg hname, if_neg (Ne.symm hname), Nat.add_zero]
      exact ih.trans (if_congr (hmem.trans (or_iff_left hname)).symm rfl rfl)

/-- In whatever order the same is measured, it comes to the same. -/
theorem durations_eq_of_perm {measured reordered : List (String × Nat)}
    (h : measured.Perm reordered) :
    (ofMeasurements start stop status measured).durations =
      (ofMeasurements start stop status reordered).durations := by
  refine OrderedMap.ext_find? (fun name => ?_)
  rw [find?_ofMeasurements, find?_ofMeasurements, total_perm name h]
  exact if_congr (h.map Prod.fst).mem_iff rfl rfl

/--
**What an attempt has measured is exact.** It has a value under a name if and only if it measured
something under it, and this is the total of that, cut at the ceiling; the order makes no difference.
-/
theorem durations_exact (measured : List (String × Nat)) (name : String) :
    (ofMeasurements start stop status measured).durations.find? name =
      (if name ∈ measured.map Prod.fst then some (min wordMax (total name measured)) else none) ∧
    ∀ reordered, measured.Perm reordered →
      (ofMeasurements start stop status measured).durations =
        (ofMeasurements start stop status reordered).durations :=
  ⟨find?_ofMeasurements measured name, fun _ hperm => durations_eq_of_perm hperm⟩

end AttemptMetrics

/-! ## What all of them measure -/

/-- The parts of a sum that is cut may be cut before. -/
theorem min_sum_min {α : Type} (attempts : Finset α) (n : α → Nat) (ceiling : Nat) :
    min ceiling (∑ a ∈ attempts, min ceiling (n a)) = min ceiling (∑ a ∈ attempts, n a) := by
  classical
  induction attempts using Finset.induction_on with
  | empty => rfl
  | insert a rest hnew ih =>
    rw [Finset.sum_insert hnew, Finset.sum_insert hnew]
    omega

/-- These are the totals of what was measured by all attempts. -/
structure Accumulates (attempts : Finset AttemptId) (measured : AttemptId → List (String × Nat))
    (totals : OrderedMap String DurationTotals) : Prop where
  /-- There is a total for each name that somebody measured something under. -/
  names : ∀ name, name ∈ totals.keys ↔ ∃ a ∈ attempts, name ∈ (measured a).map Prod.fst
  /-- The sum of all measurements of all attempts is cut once. -/
  sum : ∀ name t, totals.find? name = some t →
    t.sum = min wordMax (∑ a ∈ attempts, total name (measured a))
  /-- The longest is what one of them has, -/
  attained : ∀ name t, totals.find? name = some t →
    ∃ a ∈ attempts, name ∈ (measured a).map Prod.fst ∧ t.max = min wordMax (total name (measured a))
  /-- and none has more. -/
  bound : ∀ name t, totals.find? name = some t →
    ∀ a ∈ attempts, min wordMax (total name (measured a)) ≤ t.max
  max_le_sum : ∀ name t, totals.find? name = some t → t.max ≤ t.sum

namespace Course

variable {c : Course} {i : Initialization} {measured : AttemptId → List (String × Nat)}

/-- Each of the attempts that are expected has reported what it measured. -/
def Measures (c : Course) (measured : AttemptId → List (String × Nat)) : Prop :=
  ∀ a ∈ c.expected, ∃ start stop status,
    c.first? a = some (.ofMeasurements start stop status (measured a))

theorem Measures.find?_report (h : c.Measures measured) {a : AttemptId} (ha : a ∈ c.expected)
    (name : String) :
    (c.report a).durations.find? name = if name ∈ (measured a).map Prod.fst then
      some (min wordMax (total name (measured a))) else none := by
  obtain ⟨start, stop, status, hfirst⟩ := h a ha
  rw [report, hfirst, Option.getD_some, AttemptMetrics.find?_ofMeasurements]

theorem Measures.value_eq (h : c.Measures measured) {a : AttemptId} (ha : a ∈ c.expected)
    (name : String) : c.value name a = min wordMax (total name (measured a)) := by
  rw [value, h.find?_report ha]
  exact getD_total name (measured a)

theorem Measures.mem_keys (h : c.Measures measured) {a : AttemptId} (ha : a ∈ c.expected)
    (name : String) :
    name ∈ (c.report a).durations.keys ↔ name ∈ (measured a).map Prod.fst := by
  rw [← not_iff_not, OrderedMap.not_mem_keys_iff, h.find?_report ha]
  simp

section Record

variable (hi : Consolidates c i) (h : c.Measures measured) {name : String} {t : DurationTotals}

include hi h

theorem Consolidates.mem_keys :
    name ∈ i.durations.keys ↔ ∃ a ∈ c.expected, name ∈ (measured a).map Prod.fst := by
  rw [hi.names]
  exact exists_congr (fun a => and_congr_right (fun ha => h.mem_keys ha name))

theorem Consolidates.sum_eq (ht : i.durations.find? name = some t) :
    t.sum = min wordMax (∑ a ∈ c.expected, total name (measured a)) := by
  rw [(hi.totals name t ht).2, Finset.sum_congr rfl (fun a ha => h.value_eq ha name)]
  exact min_sum_min _ _ _

theorem Consolidates.max_eq (ht : i.durations.find? name = some t) :
    t.max = c.expected.sup (fun a => min wordMax (total name (measured a))) := by
  rw [(hi.totals name t ht).1]
  exact Finset.sup_congr rfl (fun a ha => h.value_eq ha name)

theorem Consolidates.le_max (ht : i.durations.find? name = some t) :
    ∀ a ∈ c.expected, min wordMax (total name (measured a)) ≤ t.max := by
  intro a ha
  rw [hi.max_eq h ht]
  exact Finset.le_sup (f := fun a => min wordMax (total name (measured a))) ha

/-- The longest is had by somebody who measured something under the name. -/
theorem Consolidates.exists_max (ht : i.durations.find? name = some t) :
    ∃ a ∈ c.expected, name ∈ (measured a).map Prod.fst ∧
      t.max = min wordMax (total name (measured a)) := by
  obtain ⟨a, ha, hused⟩ := (hi.mem_keys h).mp ((OrderedMap.mem_keys_iff _ _).mpr ⟨t, ht⟩)
  obtain ⟨b, hb, hgreatest⟩ := Finset.exists_mem_eq_sup c.expected ⟨a, ha⟩
    (fun a => min wordMax (total name (measured a)))
  rw [← hi.max_eq h ht] at hgreatest
  by_cases hbused : name ∈ (measured b).map Prod.fst
  · exact ⟨b, hb, hbused, hgreatest⟩
  · -- then the greatest is zero, and so is what anybody has who measured under the name
    rw [total_eq_zero hbused, Nat.min_zero] at hgreatest
    have hle := hi.le_max h ht a ha
    exact ⟨a, ha, hused, by omega⟩

theorem Consolidates.max_le_sum (ht : i.durations.find? name = some t) : t.max ≤ t.sum := by
  obtain ⟨a, ha, -, hgreatest⟩ := hi.exists_max h ht
  have hpart : total name (measured a) ≤ ∑ a ∈ c.expected, total name (measured a) :=
    Finset.single_le_sum (f := fun a => total name (measured a)) (fun _ _ => Nat.zero_le _) ha
  rw [hgreatest, hi.sum_eq h ht]
  omega

/-- **The record of a generation has the totals of what its attempts measured.** -/
theorem Consolidates.accumulates : Accumulates c.expected measured i.durations where
  names _ := hi.mem_keys h
  sum _ _ := hi.sum_eq h
  attained _ _ := hi.exists_max h
  bound _ _ := hi.le_max h
  max_le_sum _ _ := hi.max_le_sum h

end Record

/-! ## From the moment of the record on -/

/-- While no other generation begins, the course goes on. -/
theorem of?_append_within {ops later : List Operation} (hc : of? ops = some c)
    (hlater : ∀ o ∈ later, o.isBegin = false) :
    of? (ops ++ later) = some { c with since := c.since ++ later } := by
  induction later using List.reverseRecOn with
  | nil => rw [List.append_nil, List.append_nil, hc]
  | append_singleton later o ih =>
    have hbefore := ih (fun o ho => hlater o (List.mem_append_left _ ho))
    have ho := hlater o (List.mem_append_right _ List.mem_cons_self)
    rw [← List.append_assoc, of?_concat, hbefore]
    cases o with
    | beginInitialization attempts start => cases ho
    | _ => simp [next, append]

/-- A first report stays the first one. -/
theorem first?_of_isSome {a : AttemptId} (h : (c.first? a).isSome) (later : List Operation) :
    Course.first? { c with since := c.since ++ later } a = c.first? a := by
  show ((c.since ++ later).filterMap Operation.metrics?).lookup a = _
  rw [List.filterMap_append, List.lookup_append]
  exact Option.or_of_isSome h

end Course

namespace Ledger

variable {config : Config} {ops : List Operation} {c : Course}

/-- When everybody has reported and a checkpoint was named, the generation was told. -/
theorem toldBefore_of_reported (config : Config) (hc : Course.of? ops = some c)
    (hnamed : c.named? ≠ none) (hreported : ∀ a ∈ c.attempts, (c.first? a).isSome) :
    ∃ i later, ToldBefore config ops i later := by
  have hrestoring := restoring_run config ops
  have hmatches := matches_run config ops
  rw [hc] at hmatches
  cases he : ((new config).journal ops).epoch? with
  | none =>
    rw [he] at hmatches
    cases hmatches
  | some e =>
    rw [he] at hmatches
    cases hmatches with
    | some hmatches =>
      have hready : e.Ready := by
        constructor
        · intro a ha
          rw [hmatches.attempts] at ha
          have hsome := hreported a ha
          rw [← hmatches.reports a ha, List.lookup_isSome_iff] at hsome
          obtain ⟨r, hr, hfst⟩ := hsome
          exact List.mem_map.mpr ⟨r, hr, (beq_iff_eq.mp hfst).symm⟩
        · rw [hmatches.restored]
          intro hnil
          rw [Course.named?, hnil] at hnamed
          exact hnamed rfl
      cases hg : ((new config).after ops).generation with
      | none =>
        rw [hrestoring.none hg] at he
        cases he
      | some g =>
        exact toldBefore_of_completed hg ((hrestoring.completed_iff hg).mpr ⟨e, he, hready⟩)

/-- The record that was told has the totals of what its attempts have reported first. -/
theorem ToldBefore.accumulates {i : Initialization} {later : List Operation}
    (h : ToldBefore config ops i later) (hc : Course.of? ops = some c)
    {measured : AttemptId → List (String × Nat)} (hmeasured : c.Measures measured) :
    Accumulates c.expected measured i.durations := by
  obtain ⟨before, o, rfl, hi⟩ := h.told
  obtain ⟨d, hd, hconsolidates, -⟩ := consolidates_told config before o hi
  rw [List.append_cons, Course.of?_append_within hd h.within] at hc
  obtain rfl := Option.some.inj hc
  -- everybody had reported by then, so these are the first reports still
  refine hconsolidates.accumulates (fun a ha => ?_)
  have hfirst := hmeasured a ha
  rwa [Course.first?_of_isSome (hconsolidates.reported a ha)] at hfirst

/--
**Durations are exact totals, cut once.** Whatever an attempt measures, and in whatever order, it
has a value under a name exactly if it measured something under it, and this is the total of that,
cut at the ceiling. In any run, when all attempts of the current generation have reported what they
measured and a checkpoint was named, there is a record of this generation, and it has an entry for
each name that somebody measured something under. Its sum is the total over all measurements of all
attempts, cut once; its longest is what one of those who measured it has under the name, no other
has more, and it is not more than the sum.
-/
theorem durations_accumulate (config : Config) (ops : List Operation) :
    (∀ start stop status calls name,
      (AttemptMetrics.ofMeasurements start stop status calls).durations.find? name =
        (if name ∈ calls.map Prod.fst then some (min wordMax (total name calls)) else none) ∧
      ∀ reordered, calls.Perm reordered →
        (AttemptMetrics.ofMeasurements start stop status calls).durations =
          (AttemptMetrics.ofMeasurements start stop status reordered).durations) ∧
    ∀ c : Course, Course.of? ops = some c → c.named? ≠ none →
      ∀ measured : AttemptId → List (String × Nat), c.Measures measured →
        ∃ i, ((new config).after ops).latestInitialization = some i ∧
          (∃ later, ToldBefore config ops i later) ∧
          Accumulates c.expected measured i.durations := by
  refine ⟨fun _ _ _ calls name => AttemptMetrics.durations_exact calls name, ?_⟩
  intro c hc hnamed measured hmeasured
  have hreported : ∀ a ∈ c.attempts, (c.first? a).isSome := by
    intro a ha
    obtain ⟨_, _, _, hfirst⟩ := hmeasured a (List.mem_toFinset.mpr ha)
    rw [hfirst]
    rfl
  obtain ⟨i, later, htold⟩ := toldBefore_of_reported config hc hnamed hreported
  exact ⟨i, htold.initialized.latestInitialization, ⟨later, htold⟩,
    htold.accumulates hc hmeasured⟩

/-- What two attempts measure. The one is above the ceiling already, and was never idle. -/
def overflowing (attempt : AttemptId) : List (String × Nat) :=
  if attempt = ⟨91, by decide⟩ then [("Gate", wordMax), ("Idle", 0), ("Gate", 1)]
  else [("Gate", 5), ("Read", 2)]

/-- The checkpoint is named again after the generation is complete. -/
def overflowingRun : List Operation :=
  [.beginInitialization [⟨92, by decide⟩, ⟨91, by decide⟩] 10,
   .reportMetrics ⟨91, by decide⟩
     (.ofMeasurements 10 40 (some .completed) (overflowing ⟨91, by decide⟩)),
   .reportRestored 7 (.checkpoint .never) none 100,
   .reportMetrics ⟨92, by decide⟩ (.ofMeasurements 11 30 none (overflowing ⟨92, by decide⟩)),
   .reportRestored 8 (.checkpoint .never) none 100]

/-- The longest and the sum of the one name are at the ceiling, those of another are zero. -/
theorem overflowingRun_accumulates :
    ∃ i gate idle, ((new {}).after overflowingRun).latestInitialization = some i ∧
      i.durations.find? "Gate" = some gate ∧ gate.sum = wordMax ∧ gate.max = wordMax ∧
      i.durations.find? "Idle" = some idle ∧ idle.sum = 0 ∧ idle.max = 0 ∧
      "Write" ∉ i.durations.keys := by
  have hmeasured : Course.Measures ⟨[⟨92, by decide⟩, ⟨91, by decide⟩], 10, overflowingRun.tail⟩
      overflowing := by
    intro a ha
    have ha : a = ⟨92, by decide⟩ ∨ a = ⟨91, by decide⟩ := by
      simpa [Course.expected] using ha
    rcases ha with rfl | rfl
    · exact ⟨11, 30, none, rfl⟩
    · exact ⟨10, 40, some .completed, rfl⟩
  obtain ⟨i, hi, -, h⟩ :=
    (durations_accumulate {} overflowingRun).2 _ rfl (by decide) overflowing hmeasured
  obtain ⟨gate, hgate⟩ := (i.durations.mem_keys_iff "Gate").mp
    ((h.names "Gate").mpr ⟨⟨91, by decide⟩, by decide, by decide⟩)
  obtain ⟨idle, hidle⟩ := (i.durations.mem_keys_iff "Idle").mp
    ((h.names "Idle").mpr ⟨⟨91, by decide⟩, by decide, by decide⟩)
  have hgateSum : gate.sum = wordMax := (h.sum _ _ hgate).trans (by decide)
  have hidleSum : idle.sum = 0 := (h.sum _ _ hidle).trans (by decide)
  have hgateMax := h.bound _ _ hgate ⟨91, by decide⟩ (by decide)
  rw [show min wordMax (Durations.total "Gate" _) = wordMax by decide] at hgateMax
  have hle := h.max_le_sum _ _ hgate
  have hidleLe := h.max_le_sum _ _ hidle
  refine ⟨i, gate, idle, hi, hgate, hgateSum, by omega, hidle, hidleSum, by omega, ?_⟩
  rw [h.names]
  decide

end Ledger

end CheckpointLedger
