import CheckpointLedger.Proofs.Consistency
import CheckpointLedger.Proofs.Totals

/-!
# Lists in order, and looking one up

The list of a checkpoint is ordered twice, the groups by their ids and the reports of a group by
their subtasks. Nothing that uses such a list checks this. A report is looked up by halving the
list (`Report.search`), which is right of an ordered list only.

So there are two things to say. One is about the search alone, and any list in order: what is
thrown away in a step is on the wrong side of the middle, so nothing that is looked for is lost
(`Report.search_eq_some_iff`). Nor does the search forgive any disorder: among different subtasks,
if each is found, the list is in order (`Report.increasing_of_search`). For the report in the
middle sends every subtask to one side, and a report on its wrong side is lost.

The other is that **all lists there are** are in order (`InOrder`): that of a record in progress,
since it follows the slots, that of a result, since it is the list of its record, and that of an
end that is shown, since it is a result that was reported.
-/

namespace CheckpointLedger

/-! ## Halving a list -/

namespace Report

variable {reports : List Report} {subtask : Nat}

/-- Wherever the list is cut, what comes before is below the one at the cut. -/
theorem lt_of_mem_take (h : reports.Pairwise (·.subtask < ·.subtask)) {i : Nat}
    (hi : i < reports.length) : ∀ r ∈ reports.take i, r.subtask < reports[i].subtask := by
  intro r hr
  rw [← List.take_append_drop i reports, ← List.getElem_cons_drop hi] at h
  exact (List.pairwise_append.mp h).2.2 r hr _ List.mem_cons_self

theorem le_of_mem_drop (h : reports.Pairwise (·.subtask < ·.subtask)) {i : Nat}
    (hi : i < reports.length) : ∀ r ∈ reports.drop i, reports[i].subtask ≤ r.subtask := by
  intro r hr
  have hdrop := h.sublist (List.drop_sublist i reports)
  rw [← List.getElem_cons_drop hi] at hdrop hr
  rcases List.mem_cons.mp hr with rfl | hr
  · exact Nat.le_refl _
  · exact Nat.le_of_lt ((List.pairwise_cons.mp hdrop).1 r hr)

/-- Where the report in the middle is above, the search goes on before it. -/
theorem search_of_middle_gt (hmany : 1 < reports.length)
    (h : subtask < reports[reports.length / 2].subtask) :
    search subtask reports =
      search subtask (reports.take (reports.length - reports.length / 2)) := by
  rw [search, dif_neg (by omega)]
  exact if_pos h

/-- Where it is not, the search goes on from it. -/
theorem search_of_middle_le (hmany : 1 < reports.length)
    (h : reports[reports.length / 2].subtask ≤ subtask) :
    search subtask reports = search subtask (reports.drop (reports.length / 2)) := by
  rw [search, dif_neg (by omega)]
  exact if_neg (Nat.not_lt.mpr h)

/-- **In a list that is in order, what is looked up is found.** -/
theorem search_eq_some_iff (h : reports.Pairwise (·.subtask < ·.subtask)) (r : Report) :
    search subtask reports = some r ↔ r ∈ reports ∧ r.subtask = subtask := by
  induction reports using Report.search.induct subtask with
  | case1 s rest hone hhit _ =>
    obtain rfl : rest = [] := List.length_eq_zero_iff.mp (by simpa using hone)
    rw [search, dif_pos hone]
    simp only [if_pos hhit, Option.some.injEq, List.mem_singleton]
    exact ⟨fun he => ⟨he.symm, he ▸ hhit⟩, fun ⟨he, _⟩ => he.symm⟩
  | case2 s rest hone hmiss _ =>
    obtain rfl : rest = [] := List.length_eq_zero_iff.mp (by simpa using hone)
    rw [search, dif_pos hone]
    simp only [if_neg hmiss, List.mem_singleton, reduceCtorEq, false_iff]
    rintro ⟨rfl, hhit⟩
    exact hmiss hhit
  | case3 => simp [search]
  | case4 reports hmany middle hgt ih =>
    rw [search_of_middle_gt (Nat.not_le.mp hmany) hgt, ih (h.sublist (List.take_sublist _ _))]
    refine and_congr_left (fun hsubtask => ⟨fun hr => List.mem_of_mem_take hr, fun hr => ?_⟩)
    -- what is thrown away is not before the middle, and so above what is looked for
    rw [← List.take_append_drop (reports.length - reports.length / 2) reports] at hr
    rcases List.mem_append.mp hr with hr | hr
    · exact hr
    · have hafter := List.drop_subset_drop_left reports (i := reports.length / 2) (by omega) hr
      have := le_of_mem_drop h middle r hafter
      omega
  | case5 reports hmany middle hle ih =>
    rw [search_of_middle_le (Nat.not_le.mp hmany) (Nat.not_lt.mp hle),
      ih (h.sublist (List.drop_sublist _ _))]
    refine and_congr_left (fun hsubtask => ⟨fun hr => List.mem_of_mem_drop hr, fun hr => ?_⟩)
    rw [← List.take_append_drop (reports.length / 2) reports] at hr
    rcases List.mem_append.mp hr with hr | hr
    · have := lt_of_mem_take h middle r hr
      omega
    · exact hr

/-- Nothing is found if and only if there is nothing to be found. -/
theorem search_eq_none_iff (h : reports.Pairwise (·.subtask < ·.subtask)) :
    search subtask reports = none ↔ ∀ r ∈ reports, r.subtask ≠ subtask := by
  rw [Option.eq_none_iff_forall_ne_some]
  simp only [ne_eq, search_eq_some_iff h, not_and]

/-- **What is found is what was looked up**, whatever the order of the list. -/
theorem mem_of_search {r : Report} (h : search subtask reports = some r) :
    r ∈ reports ∧ r.subtask = subtask := by
  induction reports using Report.search.induct subtask with
  | case1 s rest hone hhit _ =>
    rw [search, dif_pos hone] at h
    simp only [if_pos hhit, Option.some.injEq] at h
    exact h ▸ ⟨List.mem_cons_self, hhit⟩
  | case2 s rest hone hmiss _ =>
    rw [search, dif_pos hone] at h
    simp only [if_neg hmiss, reduceCtorEq] at h
  | case3 => simp [search] at h
  | case4 reports hmany middle hgt ih =>
    rw [search_of_middle_gt (Nat.not_le.mp hmany) hgt] at h
    exact ⟨List.mem_of_mem_take (ih h).1, (ih h).2⟩
  | case5 reports hmany middle hle ih =>
    rw [search_of_middle_le (Nat.not_le.mp hmany) (Nat.not_lt.mp hle)] at h
    exact ⟨List.mem_of_mem_drop (ih h).1, (ih h).2⟩

/-- What is found on the left of the middle is below it. -/
theorem lt_middle_of_found (hdistinct : reports.Pairwise (·.subtask ≠ ·.subtask))
    (hmany : 1 < reports.length) {r : Report} (hr : r ∈ reports.take (reports.length / 2))
    (hfound : (search r.subtask reports).isSome) :
    r.subtask < reports[reports.length / 2].subtask := by
  refine Nat.lt_of_not_le (fun hle => ?_)
  rw [search_of_middle_le hmany hle] at hfound
  obtain ⟨s, hs⟩ := Option.isSome_iff_exists.mp hfound
  obtain ⟨hmem, hsame⟩ := mem_of_search hs
  -- the search went to the right, and found another report of this subtask there
  rw [← List.take_append_drop (reports.length / 2) reports] at hdistinct
  exact (List.pairwise_append.mp hdistinct).2.2 r hr s hmem hsame.symm

/-- What is found from the middle on is not below it. -/
theorem middle_le_of_found (hdistinct : reports.Pairwise (·.subtask ≠ ·.subtask))
    (hmany : 1 < reports.length) {r : Report} (hr : r ∈ reports.drop (reports.length / 2))
    (hfound : (search r.subtask reports).isSome) :
    reports[reports.length / 2].subtask ≤ r.subtask := by
  refine Nat.le_of_not_lt (fun hgt => ?_)
  rw [search_of_middle_gt hmany hgt] at hfound
  obtain ⟨s, hs⟩ := Option.isSome_iff_exists.mp hfound
  obtain ⟨hmem, hsame⟩ := mem_of_search hs
  -- of an odd number of reports the middle itself is kept, but it is not what was looked up
  have hkept : s ∈ reports.take (reports.length / 2 + 1) :=
    List.take_subset_take_left reports (by omega) hmem
  rw [List.take_succ_eq_append_getElem (by omega), List.mem_append, List.mem_singleton] at hkept
  rcases hkept with hbefore | hmiddle
  · rw [← List.take_append_drop (reports.length / 2) reports] at hdistinct
    exact (List.pairwise_append.mp hdistinct).2.2 s hbefore r hr hsame
  · exact Nat.ne_of_gt hgt (hmiddle ▸ hsame)

/--
**A search that finds everything proves the order.** If no two reports are of one subtask and each
of them is found, they are listed by their subtasks. Nothing has to be known of the last report of
all; this carries the induction to the left part, which shares the middle with the right one if
the number of reports is odd.
-/
theorem increasing_of_search (hdistinct : reports.Pairwise (·.subtask ≠ ·.subtask))
    (hfound : ∀ r ∈ reports.dropLast, (search r.subtask reports).isSome) :
    reports.Pairwise (·.subtask < ·.subtask) := by
  induction hlength : reports.length using Nat.strongRecOn generalizing reports with
  | ind n ih =>
    subst hlength
    by_cases hmany : 1 < reports.length
    case neg =>
      match reports, hmany with
      | [], _ => exact .nil
      | [r], _ => exact List.pairwise_singleton _ r
      | _ :: _ :: _, hmany => exact absurd (by simp) hmany
    have hinit : ∀ r ∈ reports.take (reports.length - 1), (search r.subtask reports).isSome :=
      List.dropLast_eq_take ▸ hfound
    have hbelow : ∀ r ∈ reports.take (reports.length / 2),
        r.subtask < reports[reports.length / 2].subtask := by
      intro r hr
      refine lt_middle_of_found hdistinct hmany hr (hinit r ?_)
      exact List.take_subset_take_left reports (by omega) hr
    have hleft : (reports.take (reports.length - reports.length / 2)).Pairwise
        (·.subtask < ·.subtask) := by
      refine ih _ (by rw [List.length_take]; omega) (hdistinct.sublist (List.take_sublist _ _))
        (fun r hr => ?_) rfl
      rw [List.dropLast_take (by omega)] at hr
      rw [← search_of_middle_gt hmany (hbelow r (List.take_subset_take_left reports (by omega) hr))]
      exact hinit r (List.take_subset_take_left reports (by omega) hr)
    have hright : (reports.drop (reports.length / 2)).Pairwise (·.subtask < ·.subtask) := by
      refine ih _ (by rw [List.length_drop]; omega) (hdistinct.sublist (List.drop_sublist _ _))
        (fun r hr => ?_) rfl
      have hfound : (search r.subtask reports).isSome := by
        rw [List.dropLast_eq_take, List.length_drop, Nat.sub_right_comm, ← List.drop_take] at hr
        exact hinit r (List.mem_of_mem_drop hr)
      rwa [← search_of_middle_le hmany
        (middle_le_of_found hdistinct hmany (List.dropLast_subset _ hr) hfound)]
    -- the left part is below the middle, and the right one starts with it
    rw [← List.take_append_drop (reports.length / 2) reports]
    refine List.pairwise_append.mpr ⟨hleft.sublist ?_, hright, fun a ha b hb => ?_⟩
    · exact List.take_sublist_take_left (by omega)
    · rw [← List.getElem_cons_drop (by omega)] at hright hb
      rcases List.mem_cons.mp hb with rfl | hb
      · exact hbelow a ha
      · exact Nat.lt_trans (hbelow a ha) ((List.pairwise_cons.mp hright).1 b hb)

end Report

/-! ## Lists in order -/

/-- A list of these groups, by their ids, and in each of the reports, by their subtasks. -/
structure InOrder (groups : OrderedMap VertexId Nat) (listed : List GroupReports) : Prop where
  /-- Each group is listed once, with its number of subtasks. -/
  vertices : listed.map (fun g => (g.vertex, g.parallelism)) = groups.entries
  ascending : listed.Pairwise (·.vertex.value < ·.vertex.value)
  subtasks : ∀ g ∈ listed, g.reports.Pairwise (·.subtask < ·.subtask)
  bounded : ∀ g ∈ listed, ∀ r ∈ g.reports, r.subtask < g.parallelism

/-- The same groups in some order, each with the same reports in some order. -/
def GroupReports.Shuffled (traversal listed : List GroupReports) : Prop :=
  ∃ reordered : List GroupReports, reordered.Perm listed ∧
    List.Forall₂ (fun g g' => g.vertex = g'.vertex ∧ g.parallelism = g'.parallelism ∧
      g.reports.Perm g'.reports) traversal reordered

/-- **Sorting on both levels has one outcome**, whatever the order before. -/
theorem InOrder.arranged_eq {groups : OrderedMap VertexId Nat}
    {listed traversal : List GroupReports} (h : InOrder groups listed)
    (hshuffled : GroupReports.Shuffled traversal listed) :
    GroupReports.arranged traversal = listed := by
  obtain ⟨reordered, hperm, hsame⟩ := hshuffled
  have hsorted : traversal.map (·.sorted) = reordered := by
    have hmem : ∀ g ∈ reordered, g ∈ listed := fun g hg => hperm.mem_iff.mp hg
    clear hperm
    induction hsame with
    | nil => rfl
    | @cons g g' _ _ hg _ ih =>
      obtain ⟨hvertex, hparallelism, hreports⟩ := hg
      obtain ⟨hmem', hrest⟩ := List.forall_mem_cons.mp hmem
      rw [List.map_cons, ih hrest, GroupReports.sorted,
        sortBy_eq_of_perm hreports (h.subtasks g' hmem'), hvertex, hparallelism]
  rw [GroupReports.arranged, hsorted]
  exact sortBy_eq_of_perm hperm h.ascending

theorem Pending.Holds.inOrder {groups : OrderedMap VertexId Nat}
    {taken : List (VertexId × Report)} {p : Pending} (h : Holds groups taken p) :
    InOrder groups p.allGroups where
  vertices := h.lists.vertices
  ascending := p.increasing_allGroups
  subtasks := h.lists.increasing
  bounded := h.lists.bounded

/-- All ends that a history has: those of its entries, and the latest of each kind. -/
def History.ends (h : History) : List Conclusion :=
  h.entries.filterMap Entry.conclusion? ++ h.latestCompleted.toList.map .completed ++
    h.latestSavepoint.toList.map .completed ++ h.latestFailed.toList.map .failed

namespace Ledger

variable {config : Config} {ops : List Operation}

/-- In this run a checkpoint was registered under the handle, with these groups. -/
def Registers (config : Config) (ops : List Operation) (id : Nat)
    (groups : OrderedMap VertexId Nat) (handle : Handle) : Prop :=
  ∃ before trigger properties rest, ops = before ++ .register id trigger properties groups :: rest ∧
    (((new config).after before).perform (.register id trigger properties groups)).answer =
      .registered handle

theorem Registers.concat {id : Nat} {groups : OrderedMap VertexId Nat} {handle : Handle}
    (h : Registers config ops id groups handle) (o : Operation) :
    Registers config (ops ++ [o]) id groups handle := by
  obtain ⟨before, trigger, properties, rest, rfl, hanswer⟩ := h
  exact ⟨before, trigger, properties, rest ++ [o], by simp, hanswer⟩

theorem inOrder_of_record {handle : Handle} {p : Pending}
    (h : ((new config).after ops).record? handle = some p) :
    ∃ groups, Registers config ops p.id groups handle ∧ InOrder groups p.allGroups := by
  have hr := (handed_run config ops).registration h
  obtain ⟨before, trigger, properties, groups, rest, hops, hanswer, taken, hlater⟩ :=
    kept_of_registered hr
  obtain ⟨_, p', hp, hkept⟩ := hlater []
  obtain rfl := Option.some.inj (h.symm.trans hp)
  exact ⟨groups, ⟨before, trigger, properties, rest, hops, hanswer⟩, hkept.holds.inOrder⟩

/-- A result has the list of the record that was asked for it. -/
theorem inOrder_of_result {c : Conclusion} (hc : c ∈ (new config).results ops) :
    ∃ groups handle, Registers config ops c.id groups handle ∧
      InOrder groups c.gathered.acknowledged.groups := by
  induction ops using List.reverseRecOn with
  | nil => exact absurd hc List.not_mem_nil
  | append_singleton ops o ih =>
    rw [results_concat, List.mem_append] at hc
    rcases hc with hc | hc
    · obtain ⟨groups, handle, hregisters, hin⟩ := ih hc
      exact ⟨groups, handle, hregisters.concat o, hin⟩
    · obtain ⟨handle, p, hrecord, hgathered, -⟩ :=
        record_of_concluded (Answer.eq_of_conclusion? hc)
      obtain ⟨groups, hregisters, hin⟩ := inOrder_of_record hrecord
      rw [Conclusion.id, hgathered]
      exact ⟨groups, handle, hregisters.concat o, hin⟩

/-! ## Ends that are shown -/

/-- What was accepted as an end is an end that was reported. -/
theorem exists_of_concluded {l : Ledger} {c : Conclusion} (hc : c ∈ (l.journal ops).conclusions) :
    ∃ o ∈ ops, o.conclusion? = some c := by
  induction ops generalizing l with
  | nil => exact absurd hc List.not_mem_nil
  | cons o rest ih =>
    rw [journal, Journal.conclusions_append, List.mem_append] at hc
    rcases hc with hc | hc
    · exact ⟨o, List.mem_cons_self, conclusion?_of_posted hc⟩
    · obtain ⟨q, hq, hqc⟩ := ih hc
      exact ⟨q, List.mem_cons_of_mem o hq, hqc⟩

/-- Whatever end a history has was accepted. -/
theorem mem_conclusions_of_ends {c : Conclusion} (hc : c ∈ ((new config).after ops).history.ends) :
    c ∈ ((new config).journal ops).conclusions := by
  have hfigured := figured_run config ops
  have hcompleted : ∀ d ∈ ((new config).journal ops).completions,
      Conclusion.completed d ∈ ((new config).journal ops).conclusions := by
    intro d hd
    obtain ⟨c, hc, hcd⟩ := List.mem_filterMap.mp hd
    cases c with
    | completed c => rwa [← Option.some.inj hcd]
    | failed f => cases hcd
  simp only [History.ends, List.mem_append, List.mem_filterMap, List.mem_map,
    Option.mem_toList] at hc
  rcases hc with ((⟨e, he, hec⟩ | ⟨d, hd, rfl⟩) | ⟨d, hd, rfl⟩) | ⟨f, hf, rfl⟩
  · cases e with
    | inProgress id handle => cases hec
    | concluded d =>
      obtain rfl := Option.some.inj hec
      exact (retained_run config ops).mem_conclusions (tracked_run config ops) he
  · rw [hfigured.checkpoint] at hd
    exact hcompleted d (List.mem_filter.mp (newestOf_eq_some hd).1).1
  · rw [hfigured.savepoint] at hd
    exact hcompleted d (List.mem_filter.mp (newestOf_eq_some hd).1).1
  · rw [hfigured.failed] at hf
    obtain ⟨c, hc, hcf⟩ := List.mem_filterMap.mp (newestOf_eq_some hf).1
    cases c with
    | completed c => cases hcf
    | failed c => rwa [← Option.some.inj hcf]

/--
**All lists are in order, and what is looked up is found.** After any run, what stands under a
handle is the record of a checkpoint that was registered under it, and it lists each of the groups
registered once, by their ids, and in each the reports by their subtasks, all of which the group
has. Asked for one group, it gives the one that is listed; and whoever goes through the groups and
the slots in another order, and sorts what was found, has the same list. Every result that was
given has such a list, and so has every end that a snapshot shows, whether among the entries or as
the latest of its kind, if what was reported as an end is a result that some ledger gave. And in
any group with its reports by their subtasks, whichever subtask is looked up, its report is found
if there is one, and else none.
-/
theorem listed_in_order (config : Config) (ops : List Operation) :
    (∀ handle p, ((new config).after ops).record? handle = some p →
      ∃ groups, Registers config ops p.id groups handle ∧ InOrder groups p.allGroups ∧
        (∀ vertex, p.group? vertex = p.allGroups.find? (fun g => g.vertex = vertex)) ∧
        ∀ traversal, GroupReports.Shuffled traversal p.allGroups →
          GroupReports.arranged traversal = p.allGroups) ∧
    (∀ c ∈ (new config).results ops, ∃ groups handle, Registers config ops c.id groups handle ∧
      InOrder groups c.gathered.acknowledged.groups) ∧
    ((∀ o ∈ ops, ∀ c ∈ o.conclusion?, ∃ config' ops', c ∈ (new config').results ops') →
      ∀ s, (((new config).after ops).perform .snapshot).answer = .snapshot s →
        ∀ c ∈ s.history.ends, ∃ config' ops' groups handle,
          Registers config' ops' c.id groups handle ∧
            InOrder groups c.gathered.acknowledged.groups) ∧
    ∀ g : GroupReports, g.reports.Pairwise (·.subtask < ·.subtask) → ∀ subtask,
      (∀ r, g.report? subtask = some r ↔ r ∈ g.reports ∧ r.subtask = subtask) ∧
      (g.report? subtask = none ↔ ∀ r ∈ g.reports, r.subtask ≠ subtask) := by
  refine ⟨fun handle p hrecord => ?_, fun c hc => inOrder_of_result hc, ?_, fun g hg subtask => ?_⟩
  · obtain ⟨groups, hregisters, hin⟩ := inOrder_of_record hrecord
    exact ⟨groups, hregisters, hin, p.group?_eq, fun _ hshuffled => hin.arranged_eq hshuffled⟩
  · intro hgiven s hs c hc
    obtain ⟨s', hs', hshows⟩ := shown_run config ops
    obtain rfl := Answer.snapshot.inj (hs.symm.trans hs')
    rw [hshows] at hc
    -- what is shown was accepted, and what was accepted was reported
    obtain ⟨o, ho, hreported⟩ := exists_of_concluded (mem_conclusions_of_ends hc)
    obtain ⟨config', ops', hresult⟩ := hgiven o ho c hreported
    exact ⟨config', ops', inOrder_of_result hresult⟩
  · exact ⟨Report.search_eq_some_iff hg, Report.search_eq_none_iff hg⟩

/-- A group of four subtasks, of which one does not report, and one of none. -/
def scatteredGroups : OrderedMap VertexId Nat :=
  .ofList [(⟨71, by decide⟩, 4), (⟨61, by decide⟩, 0)]

/-- The reports come in no order, and there is no fifth subtask. -/
def scatteredRun : List Operation :=
  [.register 3 50 (.checkpoint .never) scatteredGroups,
   .acknowledge ⟨0⟩ ⟨71, by decide⟩ (.new 3 40), .route 3 ⟨71, by decide⟩ (.new 0 41),
   .acknowledge ⟨0⟩ ⟨71, by decide⟩ (.new 2 42), .acknowledge ⟨0⟩ ⟨71, by decide⟩ (.new 4 43),
   .complete ⟨0⟩ none 1]

/-- The greater group as it is listed. -/
def scatteredGroup : GroupReports := ⟨⟨71, by decide⟩, 4, [.new 0 41, .new 2 42, .new 3 40]⟩

/-- The result. -/
def scatteredEnd : Completed where
  id := 3
  trigger := 50
  properties := .checkpoint .never
  total := 4
  acknowledged := .ofGroups [⟨⟨61, by decide⟩, 0, []⟩, scatteredGroup]
  pointer := none
  metadataSize := 1

/-- In the record, in the result and in what is shown; of five subtasks three are found. -/
theorem scatteredRun_in_order :
    (∃ p, ((new {}).after scatteredRun).record? ⟨0⟩ = some p ∧ InOrder scatteredGroups p.allGroups ∧
      p.group? ⟨71, by decide⟩ = some scatteredGroup ∧ p.group? ⟨65, by decide⟩ = none ∧
      GroupReports.arranged [{ scatteredGroup with reports := scatteredGroup.reports.reverse },
        ⟨⟨61, by decide⟩, 0, []⟩] = p.allGroups) ∧
    (∃ s, (((new {}).after (scatteredRun ++ [.reportCompleted scatteredEnd])).perform
        .snapshot).answer = .snapshot s ∧ .completed scatteredEnd ∈ s.history.ends ∧
      ∃ config ops groups handle, Registers config ops 3 groups handle ∧
        InOrder groups scatteredEnd.acknowledged.groups) ∧
    scatteredGroup.report? 0 = some (.new 0 41) ∧ scatteredGroup.report? 1 = none ∧
    scatteredGroup.report? 3 = some (.new 3 40) ∧ scatteredGroup.report? 4 = none := by
  have hresult : .completed scatteredEnd ∈ (new {}).results scatteredRun := by
    rw [show (new {}).results scatteredRun = [.completed scatteredEnd] from rfl]
    exact List.mem_cons_self
  obtain ⟨hrecords, -, -, hfound⟩ := listed_in_order {} scatteredRun
  obtain ⟨-, -, hshown, -⟩ :=
    listed_in_order {} (scatteredRun ++ [.reportCompleted scatteredEnd])
  refine ⟨?_, ?_, ?_⟩
  · obtain ⟨groups, -, hin, hgroup, harranged⟩ := hrecords ⟨0⟩ _ rfl
    have hgroups : groups = scatteredGroups :=
      OrderedMap.eq_of_entries (hin.vertices.symm.trans rfl)
    refine ⟨_, rfl, hgroups ▸ hin, (hgroup _).trans rfl, (hgroup _).trans rfl, harranged _ ?_⟩
    refine ⟨[scatteredGroup, ⟨⟨61, by decide⟩, 0, []⟩], List.Perm.swap _ _ _, ?_⟩
    exact .cons ⟨rfl, rfl, List.reverse_perm _⟩ (.cons ⟨rfl, rfl, .refl _⟩ .nil)
  · refine ⟨_, rfl, ?_, hshown ?_ _ rfl (.completed scatteredEnd) ?_⟩
    · exact List.mem_append_left _ (List.mem_append_left _ (List.mem_append_left _
        List.mem_cons_self))
    · intro o ho c hc
      refine ⟨{}, scatteredRun, ?_⟩
      rcases List.mem_append.mp ho with ho | ho
      · -- nothing is reported before the result is there
        have hnone : ∀ o ∈ scatteredRun, o.conclusion? = none := by decide
        rw [hnone o ho] at hc
        cases hc
      · obtain rfl := List.mem_singleton.mp ho
        obtain rfl := Option.some.inj hc
        exact hresult
    · exact List.mem_append_left _ (List.mem_append_left _ (List.mem_append_left _
        List.mem_cons_self))
  · have hsorted : scatteredGroup.reports.Pairwise (·.subtask < ·.subtask) := by decide
    have hlookup := hfound scatteredGroup hsorted
    exact ⟨((hlookup 0).1 _).mpr (by decide), (hlookup 1).2.mpr (by decide),
      ((hlookup 3).1 _).mpr (by decide), (hlookup 4).2.mpr (by decide)⟩

end Ledger

end CheckpointLedger
