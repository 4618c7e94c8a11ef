import CheckpointLedger.Proofs.Fields
import CheckpointLedger.Proofs.Lookup

/-!
# The order of a group that was read

A report is looked up by halving the list, which relies on the order of the list. A group that
was frozen from a checkpoint in progress is in order, but a group can also be read from a document,
and there **nobody puts it in order**: its reports come as the document lists them
(`order_is_of_document`), and some document lists them in any way there is, since every group is
read from what is written of it. So a report may be there and not be found when it is looked up.
-/

namespace CheckpointLedger

/-- The text is of a group, and these are the items in its list of reports. -/
def Itemizes (text : String) (items : List Json) : Prop :=
  ∃ document vertex parallelism, Json.parse text = some document ∧
    Field.readAll (Record.fields GroupReports) document =
      some [some vertex, some parallelism, some (.array items)]

/-- What is required is there. -/
theorem Field.required_eq_some {α : Type} [Codec α] {d : Option Json} {a : α}
    (h : Field.required d = some a) : ∃ v, d = some v ∧ decode v = some a :=
  Option.bind_eq_some_iff.mp h

/-- The subtask that an item in a list of reports is of. -/
def itemSubtask? (item : Json) : Option Nat := (decode item : Option Report).map (·.subtask)

/-- Each report is read from its item. -/
theorem itemizes_of_read {text : String} {g : GroupReports} (h : Codec.read text = some g) :
    ∃ items, Itemizes text items ∧ items.map decode = g.reports.map some := by
  obtain ⟨document, hparse, hdecode⟩ := Option.bind_eq_some_iff.mp h
  obtain ⟨docs, hdocs, hvalues⟩ := Option.bind_eq_some_iff.mp hdecode
  match docs, hvalues with
  | [vertex, parallelism, listed], hvalues =>
    simp only [Record.ofValues, Option.bind_eq_bind, Option.bind_eq_some_iff, Option.pure_def,
      Option.some.injEq] at hvalues
    obtain ⟨v, hv, n, hn, reports, hreports, rfl⟩ := hvalues
    obtain ⟨dv, rfl, -⟩ := Field.required_eq_some hv
    obtain ⟨dn, rfl, -⟩ := Field.required_eq_some hn
    obtain ⟨d, rfl, hlisted⟩ := Field.required_eq_some hreports
    cases d with
    | array items =>
      refine ⟨items, ⟨document, dv, dn, hparse, hdocs⟩, List.forall₂_eq_eq_eq ▸ ?_⟩
      rw [List.forall₂_map_left_iff, List.forall₂_map_right_iff]
      exact Codec.mapM_eq_some_iff.mp hlisted
    | _ => cases hlisted

/--
**The order of a group is that of its document.** Whatever the text a group was read from, each
report is read from an item in the list of this text, in the same order. So the group is in order,
and of each subtask a report is found exactly if there is one, if and only if the items come by
their subtasks. Whatever the order, a report that is found is the one that was looked up; and if no
subtask comes twice, the search loses nothing only where the group is in order.
-/
theorem order_is_of_document {text : String} {g : GroupReports} (h : Codec.read text = some g) :
    ∃ items, Itemizes text items ∧ items.map decode = g.reports.map some ∧
      ((items.map itemSubtask?).Pairwise (· < ·) ↔
        g.reports.Pairwise (·.subtask < ·.subtask) ∧
          ∀ subtask, (g.report? subtask).isSome ↔ ∃ r ∈ g.reports, r.subtask = subtask) ∧
      (∀ subtask r, g.report? subtask = some r → r ∈ g.reports ∧ r.subtask = subtask) ∧
      (g.reports.Pairwise (·.subtask ≠ ·.subtask) →
        (∀ subtask, (g.report? subtask).isSome ↔ ∃ r ∈ g.reports, r.subtask = subtask) →
        g.reports.Pairwise (·.subtask < ·.subtask)) := by
  obtain ⟨items, hitems, hdecode⟩ := itemizes_of_read h
  have hsubtasks : items.map itemSubtask? = g.reports.map (fun r => some r.subtask) := by
    have hmap := congrArg (List.map (Option.map (fun r : Report => r.subtask))) hdecode
    rwa [List.map_map, List.map_map] at hmap
  have hascending : (items.map itemSubtask?).Pairwise (· < ·) ↔
      g.reports.Pairwise (·.subtask < ·.subtask) := by
    simp only [hsubtasks, List.pairwise_map, Option.some_lt_some]
  refine ⟨items, hitems, hdecode, ?_, fun subtask r => Report.mem_of_search,
    fun hdistinct hfound => ?_⟩
  · refine hascending.trans ⟨fun hordered => ⟨hordered, fun subtask => ?_⟩, And.left⟩
    rw [Option.isSome_iff_exists]
    exact exists_congr (fun r => Report.search_eq_some_iff hordered r)
  · refine Report.increasing_of_search hdistinct (fun r hr => ?_)
    exact (hfound r.subtask).mpr ⟨r, List.dropLast_subset _ hr, rfl⟩

/-- Of four subtasks two have reported, and the third is listed before the first. -/
def swappedGroup : GroupReports := ⟨⟨21, by decide⟩, 4, [.new 2 40, .new 0 41]⟩

theorem Report.fits_new {subtask ackTime : Nat} (hsubtask : Fits subtask) (htime : Fits ackTime) :
    Fits (Report.new subtask ackTime) := by
  have hzero : Fits 0 := Nat.zero_le _
  exact ⟨hsubtask, htime, hzero, hzero, hzero, hzero, hzero, hzero, hzero, hzero⟩

theorem fits_swappedGroup : Fits swappedGroup := by
  have hfits : ∀ n < 42, Fits n := fun n hn => Nat.le_trans (Nat.le_of_lt hn) (by decide)
  refine ⟨hfits 4 (by decide), fun r hr => ?_⟩
  rcases List.mem_pair.mp hr with rfl | rfl
  · exact Report.fits_new (hfits 2 (by decide)) (hfits 40 (by decide))
  · exact Report.fits_new (hfits 0 (by decide)) (hfits 41 (by decide))

/-- It is read from its text as it is: not in order, and the third subtask is not found. -/
theorem swappedGroup_not_in_order :
    (¬ ∀ (text : String) (g : GroupReports), Codec.read text = some g →
      g.reports.Pairwise (·.subtask < ·.subtask)) ∧
    ¬ ∀ (text : String) (g : GroupReports), Codec.read text = some g →
      ∀ subtask, (g.report? subtask).isSome ↔ ∃ r ∈ g.reports, r.subtask = subtask := by
  have hread := Codec.read_write fits_swappedGroup
  refine ⟨fun h => absurd (h _ _ hread) (by decide), fun h => ?_⟩
  have hfound := (h _ _ hread 2).mpr ⟨.new 2 40, List.mem_cons_self, rfl⟩
  have hlost : swappedGroup.report? 2 = none := by cbv
  rw [hlost] at hfound
  cases hfound

/-- The same, as it would be listed if it had been frozen. -/
def orderedGroup : GroupReports := { swappedGroup with reports := swappedGroup.reports.reverse }

/-- It is read from two items in order, so both reports are found and no others. -/
theorem orderedGroup_in_order :
    Codec.read (Codec.write orderedGroup) = some orderedGroup ∧
    (∃ items, Itemizes (Codec.write orderedGroup) items ∧
      items.map itemSubtask? = [some 0, some 2]) ∧
    ∀ subtask, (orderedGroup.report? subtask).isSome ↔ subtask = 0 ∨ subtask = 2 := by
  have hfits : Fits orderedGroup := by
    refine ⟨fits_swappedGroup.1, fun r hr => fits_swappedGroup.2 r ?_⟩
    exact List.mem_reverse.mp hr
  have hread := Codec.read_write hfits
  obtain ⟨items, hitems, hdecode, hiff, -⟩ := order_is_of_document hread
  have hsubtasks : items.map itemSubtask? = [some 0, some 2] := by
    have hmap := congrArg (List.map (Option.map (fun r : Report => r.subtask))) hdecode
    rwa [List.map_map] at hmap
  refine ⟨hread, ⟨items, hitems, hsubtasks⟩, fun subtask => ?_⟩
  rw [(hiff.mp (hsubtasks ▸ by simp)).2 subtask]
  simp [orderedGroup, swappedGroup, Report.new, eq_comm]

end CheckpointLedger
