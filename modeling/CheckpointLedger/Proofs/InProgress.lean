import CheckpointLedger.Proofs.Journal
import CheckpointLedger.Proofs.Maps
import Mathlib.Data.List.Basic

/-!
# Which checkpoints are in progress

The ledger keeps the checkpoints in progress in a map, and beside it nothing but
the last id that was registered. `Tracked` says what these two have to do with
the journal:

* ids only grow, and the last id is that of the last registration;
* the map holds **the registrations without a conclusion**, in the order of the
  journal;
* no checkpoint is concluded twice, and none that was not registered.

The last two hold each other up. A conclusion is only accepted for what is in the
map, so it is the first one of a registered checkpoint; and a registration is only
accepted for a new greatest id, so it is never the id of a conclusion.
-/

namespace CheckpointLedger

namespace Ledger

/-! ## What a turn does to the checkpoints -/

/-- The books of two ledgers agree as far as they are about checkpoints, the counts aside. -/
structure SameCheckpoints (l l' : Ledger) : Prop where
  /-- The same number of records was handed out. -/
  records : l'.records.length = l.records.length
  /-- The figures are the same. -/
  summary : l'.summary = l.summary
  /-- The histories are the same. -/
  history : l'.history = l.history
  /-- The same checkpoints are in progress. -/
  inProgress : l'.inProgress = l.inProgress
  /-- The same id was registered last. -/
  lastId : l'.lastId = l.lastId
  /-- The latest completed checkpoint is the same. -/
  latestCompleted : l'.latestCompleted = l.latestCompleted

/-- Settling a generation touches nothing outside the restores. -/
theorem settle_fst (l : Ledger) (g : Generation) :
    (l.settle g).1 = { l with
      generation := (l.settle g).1.generation
      latestInitialization := (l.settle g).1.latestInitialization } := by
  unfold settle
  split <;> rfl

theorem sameCheckpoints_settle {l l' : Ledger} (h : SameCheckpoints l l') (g : Generation) :
    SameCheckpoints l (l'.settle g).1 := by
  rw [settle_fst]
  exact ⟨h.records, h.summary, h.history, h.inProgress, h.lastId, h.latestCompleted⟩

theorem book_records (l : Ledger) (c : Conclusion) : (l.book c).records = l.records := by
  cases c <;> rfl

theorem book_history (l : Ledger) (c : Conclusion) :
    (l.book c).history = l.history.conclude c := by
  cases c <;> rfl

theorem book_inProgress (l : Ledger) (c : Conclusion) :
    (l.book c).inProgress = l.inProgress.erase c.id := by
  cases c <;> rfl

theorem book_lastId (l : Ledger) (c : Conclusion) : (l.book c).lastId = l.lastId := by
  cases c <;> rfl

/--
**A turn registers a checkpoint, concludes one, or has nothing to do with them.**
Invariants about checkpoints have these three cases only.
-/
theorem Turn.checkpoints {l l' : Ledger} {p : Option Posting} {effects : List Effect}
    (h : Turn l p effects l') :
    (Journal.registrations p.toList = [] ∧ Journal.conclusions p.toList = [] ∧
      SameCheckpoints l l') ∨
    (∃ record : Pending, (∀ last, l.lastId = some last → last < record.id) ∧
      p = some (.registered record ⟨l.records.length⟩) ∧ l' = l.enter record) ∨
    (∃ (c : Conclusion) (handle : Handle), l.inProgress? c.id = some handle ∧
      p = some (.concluded c) ∧ l' = l.book c) := by
  have beside : ∀ {records : List Pending}, records.length = l.records.length →
      ∀ {counts : Counts} {generation : Option Generation} {generations : Nat}
        {latestRestored : Option Restored} {latestInitialization : Option Initialization}
        {current : Option Snapshot} {editions : Nat},
      SameCheckpoints l { l with
        records, counts, generation, generations, latestRestored, latestInitialization, current,
        editions } := fun h => ⟨h, rfl, rfl, rfl, rfl, rfl⟩
  cases h with
  | quiet h => exact .inl ⟨rfl, rfl, beside h⟩
  | registered h => exact .inr (.inl ⟨_, h, rfl, rfl⟩)
  | concluded h => exact .inr (.inr ⟨_, _, h, rfl, rfl⟩)
  | untriggered h => exact .inl ⟨rfl, rfl, h ▸ beside rfl⟩
  | began => exact .inl ⟨rfl, rfl, beside rfl⟩
  | measured hg h => exact .inl ⟨rfl, rfl, sameCheckpoints_settle (beside rfl) _⟩
  | restored hg hr hl => exact .inl ⟨rfl, rfl, sameCheckpoints_settle (hl ▸ beside rfl) _⟩

/-! ## The invariant -/

/-- What the checkpoints in progress have to do with the journal. -/
structure Tracked (j : Journal) (l : Ledger) : Prop where
  /-- Ids only grow. -/
  increasing : j.registrations.Pairwise (fun a b => a.1 < b.1)
  /-- The last id is that of the last registration. -/
  lastId : l.lastId = j.registrations.getLast?.map Prod.fst
  /-- A record was handed out for every registration. -/
  records : l.records.length = j.registrations.length
  /-- What is in progress was registered and not concluded. -/
  inProgress : l.inProgress.entries = j.registrations.filter (fun r => r.1 ∉ j.concludedIds)
  /-- No checkpoint is concluded twice. -/
  once : j.concludedIds.Nodup
  /-- What is concluded was registered. -/
  known : ∀ id ∈ j.concludedIds, id ∈ j.registrations.map Prod.fst

theorem tracked_new (config : Config) : Tracked [] (new config) where
  increasing := List.Pairwise.nil
  lastId := rfl
  records := rfl
  inProgress := rfl
  once := List.nodup_nil
  known := by intro id h; exact absurd h List.not_mem_nil

/-- What is in progress was registered, and is not concluded. -/
theorem Tracked.mem_iff {j : Journal} {l : Ledger} (h : Tracked j l) {id : Nat}
    {handle : Handle} :
    l.inProgress? id = some handle ↔ (id, handle) ∈ j.registrations ∧ id ∉ j.concludedIds := by
  show l.inProgress.find? id = some handle ↔ _
  rw [OrderedMap.find?_eq_some_iff, h.inProgress, List.mem_filter, decide_eq_true_iff]

/-- An id above the last one is above all. -/
theorem Tracked.lt_of_free {j : Journal} {l : Ledger} (h : Tracked j l) {id : Nat}
    (hfree : ∀ last, l.lastId = some last → last < id) : ∀ r ∈ j.registrations, r.1 < id := by
  intro r hr
  rcases List.eq_nil_or_concat j.registrations with hnil | ⟨earlier, newest, hcons⟩
  · rw [hnil] at hr
    exact absurd hr List.not_mem_nil
  · -- the last one is below, and the others are below that
    have hlast : newest.1 < id := by
      refine hfree _ ?_
      rw [h.lastId, hcons, List.concat_eq_append, List.getLast?_concat]
      rfl
    have hinc := h.increasing
    rw [hcons, List.concat_eq_append] at hr hinc
    rcases List.mem_append.mp hr with hr | hr
    · have := (List.pairwise_append.mp hinc).2.2 r hr newest List.mem_cons_self
      omega
    · rw [List.mem_singleton.mp hr]
      exact hlast

/-- An id above the last one was never concluded. -/
theorem Tracked.not_concluded_of_free {j : Journal} {l : Ledger} (h : Tracked j l) {id : Nat}
    (hfree : ∀ last, l.lastId = some last → last < id) : id ∉ j.concludedIds := by
  intro hid
  obtain ⟨r, hr, rfl⟩ := List.mem_map.mp (h.known id hid)
  exact Nat.lt_irrefl _ (h.lt_of_free hfree r hr)

theorem Tracked.nodup_ids {j : Journal} {l : Ledger} (h : Tracked j l) :
    (j.registrations.map Prod.fst).Nodup :=
  List.pairwise_map.mpr (h.increasing.imp Nat.ne_of_lt)

/-- As many checkpoints are in progress as registrations have no conclusion. -/
theorem Tracked.size_inProgress {j : Journal} {l : Ledger} (h : Tracked j l) :
    l.inProgress.size + j.conclusions.length = j.registrations.length := by
  -- no id comes twice on either side, so having the same members is enough
  have hperm : ((j.registrations.map Prod.fst).filter (· ∈ j.concludedIds)).Perm
      j.concludedIds := by
    refine (List.perm_ext_iff_of_nodup (h.nodup_ids.filter _) h.once).mpr (fun id => ?_)
    rw [List.mem_filter, decide_eq_true_iff]
    exact ⟨fun hid => hid.2, fun hid => ⟨h.known id hid, hid⟩⟩
  have hdone : (j.registrations.filter (fun r => decide (r.1 ∈ j.concludedIds))).length =
      j.conclusions.length := by
    have hlen := hperm.length_eq
    rw [List.filter_map, List.length_map] at hlen
    exact hlen.trans (List.length_map _)
  have hsplit := List.length_eq_length_filter_add (l := j.registrations)
    (fun r => decide (r.1 ∈ j.concludedIds))
  have hopen : l.inProgress.size =
      (j.registrations.filter (fun r => !decide (r.1 ∈ j.concludedIds))).length := by
    rw [OrderedMap.size, h.inProgress]
    simp only [decide_not]
  omega

theorem tracked_register {j : Journal} {l : Ledger} (h : Tracked j l) {record : Pending}
    (hfree : ∀ last, l.lastId = some last → last < record.id) :
    Tracked (j ++ [.registered record ⟨l.records.length⟩]) (l.enter record) := by
  have hlt := h.lt_of_free hfree
  have hregs := j.registrations_registered record ⟨l.records.length⟩
  have hids := j.concludedIds_registered record ⟨l.records.length⟩
  refine ⟨?_, ?_, ?_, ?_, ?_, ?_⟩
  · rw [hregs]
    refine List.pairwise_append.mpr ⟨h.increasing, List.pairwise_singleton _ _, ?_⟩
    intro r hr new hnew
    rw [List.mem_singleton.mp hnew]
    exact hlt r hr
  · rw [hregs, List.getLast?_concat]
    rfl
  · rw [hregs, List.length_append, ← h.records]
    exact List.length_append
  · -- the new id is above all others, so it goes to the end of the map
    have hopen : [(record.id, (⟨l.records.length⟩ : Handle))].filter
        (fun r => r.1 ∉ j.concludedIds) = [(record.id, ⟨l.records.length⟩)] := by
      simp [h.not_concluded_of_free hfree]
    rw [hregs, hids, List.filter_append, hopen, ← h.inProgress]
    refine OrderedMap.entries_insert_last _ _ (fun b hb => ?_)
    rw [h.inProgress] at hb
    exact Nat.compare_eq_lt.mpr (hlt b (List.mem_filter.mp hb).1)
  · rw [hids]
    exact h.once
  · rw [hids, hregs]
    intro id hid
    rw [List.map_append]
    exact List.mem_append_left _ (h.known id hid)

theorem tracked_conclude {j : Journal} {l : Ledger} (h : Tracked j l) {c : Conclusion}
    {handle : Handle} (hc : l.inProgress? c.id = some handle) :
    Tracked (j ++ [.concluded c]) (l.book c) := by
  obtain ⟨hmem, hnew⟩ := h.mem_iff.mp hc
  have hregs := j.registrations_concluded c
  have hids := j.concludedIds_concluded c
  refine ⟨?_, ?_, ?_, ?_, ?_, ?_⟩
  · rw [hregs]
    exact h.increasing
  · rw [hregs, book_lastId]
    exact h.lastId
  · rw [hregs, book_records]
    exact h.records
  · rw [hregs, hids, book_inProgress, OrderedMap.entries_erase, h.inProgress, List.filter_filter]
    refine List.filter_congr (fun r _ => ?_)
    simp [and_comm, not_or]
  · -- it was in progress, so this is its first end
    rw [hids]
    exact List.nodup_append.mpr ⟨h.once, List.nodup_cons.mpr ⟨List.not_mem_nil, List.nodup_nil⟩,
      fun a ha b hb hab => hnew (List.mem_singleton.mp hb ▸ hab ▸ ha)⟩
  · rw [hids, hregs]
    intro id hid
    rcases List.mem_append.mp hid with hid | hid
    · exact h.known id hid
    · rw [List.mem_singleton.mp hid]
      exact List.mem_map_of_mem hmem

/-- **Preserved by every turn.** -/
theorem tracked_turn {j : Journal} {l l' : Ledger} {p : Option Posting} {effects : List Effect}
    (ht : Turn l p effects l') (h : Tracked j l) : Tracked (j ++ p.toList) l' := by
  rcases ht.checkpoints with ⟨hr, hc, hsame⟩ | ⟨record, hfree, rfl, rfl⟩ | ⟨c, handle, hc, rfl, rfl⟩
  · have hregs : Journal.registrations (j ++ p.toList) = j.registrations := by
      rw [Journal.registrations_append, hr, List.append_nil]
    have hids : Journal.concludedIds (j ++ p.toList) = j.concludedIds := by
      rw [Journal.concludedIds, Journal.conclusions_append, hc, List.append_nil]
      rfl
    refine ⟨?_, ?_, ?_, ?_, ?_, ?_⟩
    · rw [hregs]; exact h.increasing
    · rw [hregs, hsame.lastId]; exact h.lastId
    · rw [hregs, hsame.records]; exact h.records
    · rw [hregs, hids, hsame.inProgress]; exact h.inProgress
    · rw [hids]; exact h.once
    · rw [hids, hregs]; exact h.known
  · exact tracked_register h hfree
  · exact tracked_conclude h hc

theorem tracked_run (config : Config) (ops : List Operation) :
    Tracked ((new config).journal ops) ((new config).after ops) :=
  journal_induction (motive := Tracked) _ (tracked_new config)
    (fun _ _ _ _ _ ht h => tracked_turn ht h) ops

end Ledger

end CheckpointLedger
