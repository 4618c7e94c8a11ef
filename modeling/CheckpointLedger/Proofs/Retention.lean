import CheckpointLedger.Proofs.InProgress
import Mathlib.Data.List.DropRight
import Mathlib.Data.List.Forall2

/-!
# What the history retains

The history takes in checkpoints in the order of their registration, has them
replaced when they end, in whatever order that happens, and lets the oldest go.
What it retains can be said without any of this: it is the **last registrations**
of the journal, as many as there is room for, each shown by how it stands
(`Shows`).

The operation that could upset this is the end of a checkpoint that is not
retained any more. `History.conclude` then puts it where its id belongs and lets
the oldest entry go. That these two undo each other rests on the order of ids: a
registered checkpoint that is not retained is older than everything retained, and
if there is such a one the history is full (`conclude_evicted`).
-/

namespace CheckpointLedger

/-! ## The history by itself -/

namespace History

/-- A checkpoint that is triggered changes nothing but the entries. -/
theorem trigger_eq (h : History) (id : Nat) (handle : Handle) :
    h.trigger id handle = { h with entries := (h.trigger id handle).entries } := by
  unfold trigger
  split <;> rfl

theorem trigger_entries {h : History} (hroom : h.entries.length ≤ h.capacity) (id : Nat)
    (handle : Handle) :
    (h.trigger id handle).entries =
      (h.entries ++ [Entry.inProgress id handle]).rtake h.capacity := by
  unfold trigger
  by_cases hc : h.capacity = 0
  · rw [if_pos hc, hc, List.rtake_zero]
    rw [hc] at hroom
    exact List.length_eq_zero_iff.mp (Nat.le_zero.mp hroom)
  · rw [if_neg hc]
    rfl

theorem remember_capacity (h : History) (c : Conclusion) :
    (h.remember c).capacity = h.capacity := by
  unfold remember
  split
  · split <;> rfl
  · rfl

theorem remember_entries (h : History) (c : Conclusion) :
    (h.remember c).entries = h.entries := by
  unfold remember
  split
  · split <;> rfl
  · rfl

/-- A checkpoint that ends is remembered, and changes nothing else but the entries. -/
theorem conclude_eq (h : History) (c : Conclusion) :
    h.conclude c = { h.remember c with entries := (h.conclude c).entries } := by
  unfold conclude
  dsimp only
  split
  · rfl
  · split <;> rfl

/-- An entry that is still there is replaced in its place. -/
theorem conclude_retained {h : History} (hc : h.capacity ≠ 0) {c : Conclusion}
    (hmem : ∃ e ∈ h.entries, e.id = c.id) :
    (h.conclude c).entries = h.entries.map (fun e => if e.id = c.id then .concluded c else e) := by
  have hany : (h.remember c).entries.any (·.id == c.id) = true := by
    rw [remember_entries, List.any_eq_true]
    obtain ⟨e, he, hid⟩ := hmem
    exact ⟨e, he, beq_iff_eq.mpr hid⟩
  unfold conclude
  dsimp only
  rw [if_neg (by rwa [remember_capacity]), if_pos hany]
  show (h.remember c).entries.map _ = _
  rw [remember_entries]

/--
An entry that went before is placed in front, and goes again: the history is full
and holds later checkpoints only.
-/
theorem conclude_evicted {h : History} (hfull : h.entries.length = h.capacity) {c : Conclusion}
    (hlater : ∀ e ∈ h.entries, c.id < e.id) : (h.conclude c).entries = h.entries := by
  have hentries := remember_entries h c
  have hcap := remember_capacity h c
  have hany : ¬ (h.remember c).entries.any (·.id == c.id) = true := by
    rw [hentries, List.any_eq_true]
    rintro ⟨e, he, hid⟩
    have := hlater e he
    have := beq_iff_eq.mp hid
    omega
  have hfront : ((h.remember c).place c).entries = .concluded c :: h.entries := by
    show (h.remember c).entries.takeWhile _ ++ _ :: (h.remember c).entries.dropWhile _ = _
    rw [hentries]
    cases hes : h.entries with
    | nil => rfl
    | cons e rest =>
      -- already the first entry is later
      have hlt := hlater e (hes ▸ List.mem_cons_self)
      have hp : ¬ decide (e.id < c.id) = true := by simp; omega
      rw [List.takeWhile_cons, if_neg hp, List.dropWhile_cons, if_neg hp]
      rfl
  unfold conclude
  dsimp only
  rw [if_neg hany]
  split
  · exact hentries
  · show ((h.remember c).place c).entries.drop
      (((h.remember c).place c).entries.length - (h.remember c).capacity) = _
    rw [hfront, hcap, List.length_cons, hfull, Nat.add_sub_cancel_left]
    rfl

theorem id_of_find? {h : History} {id : Nat} {e : Entry} (hfind : h.find? id = some e) :
    e.id = id := by
  unfold find? at hfind
  have hid := List.find?_some hfind
  exact beq_iff_eq.mp hid

/-- Where no id comes twice, the entry that is found is the one of that id. -/
theorem find?_eq_some_iff {h : History} (hids : (h.entries.map (·.id)).Nodup) {id : Nat}
    {e : Entry} : h.find? id = some e ↔ e ∈ h.entries ∧ e.id = id := by
  constructor
  · intro hfind
    exact ⟨List.mem_of_find?_eq_some hfind, id_of_find? hfind⟩
  · rintro ⟨he, rfl⟩
    have hsome : (h.find? e.id).isSome := List.find?_isSome.mpr ⟨e, he, beq_self_eq_true e.id⟩
    obtain ⟨found, hfind⟩ := Option.isSome_iff_exists.mp hsome
    have hmem := List.mem_of_find?_eq_some hfind
    rw [hfind, List.inj_on_of_nodup_map hids hmem he (id_of_find? hfind)]

end History

/-! ## Entries for registrations -/

namespace Journal

/-- The entry of a registered checkpoint. -/
def entryOf (j : Journal) (r : Nat × Handle) : Entry :=
  match j.conclusions.find? (·.id == r.1) with
  | some c => .concluded c
  | none => .inProgress r.1 r.2

theorem entryOf_id (j : Journal) (r : Nat × Handle) : (j.entryOf r).id = r.1 := by
  unfold entryOf
  split
  · rename_i c hc
    have := List.find?_some hc
    exact beq_iff_eq.mp this
  · rfl

theorem entryOf_congr {j k : Journal} (h : j.conclusions = k.conclusions) :
    j.entryOf = k.entryOf := by
  funext r
  rw [entryOf, entryOf, h]

theorem find?_conclusions_eq_none {j : Journal} {id : Nat} (h : id ∉ j.concludedIds) :
    j.conclusions.find? (·.id == id) = none := by
  rw [List.find?_eq_none]
  intro c hc hid
  exact h (List.mem_map.mpr ⟨c, hc, beq_iff_eq.mp hid⟩)

/-- A conclusion changes the entry of its own checkpoint. -/
theorem entryOf_concluded {j : Journal} {c : Conclusion} (hnew : c.id ∉ j.concludedIds)
    (r : Nat × Handle) :
    entryOf (j ++ [.concluded c]) r = if r.1 = c.id then .concluded c else j.entryOf r := by
  unfold entryOf
  rw [conclusions_concluded, List.find?_append]
  by_cases hid : r.1 = c.id
  · rw [if_pos hid, hid, find?_conclusions_eq_none hnew]
    simp
  · rw [if_neg hid]
    have hother : [c].find? (·.id == r.1) = none := by
      simp [Ne.symm hid]
    rw [hother, Option.or_none]

end Journal

namespace Ledger

/-! ## The invariant -/

/-- The history retains the last registrations. -/
structure Retained (room : Nat) (j : Journal) (l : Ledger) : Prop where
  /-- There is as much room as at first. -/
  capacity : l.history.capacity = room
  /-- The entries are those of the last registrations. -/
  entries : l.history.entries = (j.registrations.rtake room).map j.entryOf

theorem retained_new (config : Config) : Retained config.historySize [] (new config) where
  capacity := rfl
  entries := by
    show [] = (List.rtake [] config.historySize).map _
    rw [List.rtake_nil, List.map_nil]

theorem length_rtake {α : Type} (xs : List α) (n : Nat) : (xs.rtake n).length = min n xs.length := by
  rw [List.rtake, List.length_drop]
  omega

theorem rtake_map {α β : Type} (f : α → β) (xs : List α) (n : Nat) :
    (xs.map f).rtake n = (xs.rtake n).map f := by
  rw [List.rtake, List.rtake, List.length_map, List.map_drop]

theorem rtake_rtake_concat {α : Type} (xs : List α) (x : α) (n : Nat) :
    (xs.rtake n ++ [x]).rtake n = (xs ++ [x]).rtake n := by
  cases n with
  | zero => rw [List.rtake_zero, List.rtake_zero]
  | succ n =>
    rw [List.rtake_concat_succ, List.rtake_concat_succ]
    simp [List.rtake, List.drop_drop]
    omega

theorem Retained.length_le {room : Nat} {j : Journal} {l : Ledger}
    (h : Retained room j l) : l.history.entries.length ≤ room := by
  rw [h.entries, List.length_map, length_rtake]
  omega

theorem retained_register {room : Nat} {j : Journal} {l : Ledger} (h : Retained room j l)
    (record : Pending) (hnew : record.id ∉ j.concludedIds) :
    Retained room (j ++ [.registered record ⟨l.records.length⟩]) (l.enter record) := by
  have hregs := j.registrations_registered record ⟨l.records.length⟩
  have hcs := j.conclusions_registered record ⟨l.records.length⟩
  -- a new id has no end yet, so the entry is that of a checkpoint in progress
  have hentry : j.entryOf (record.id, ⟨l.records.length⟩) =
      .inProgress record.id ⟨l.records.length⟩ := by
    rw [Journal.entryOf, Journal.find?_conclusions_eq_none hnew]
  refine ⟨?_, ?_⟩
  · show (l.history.trigger record.id ⟨l.records.length⟩).capacity = room
    rw [History.trigger_eq]
    exact h.capacity
  · show (l.history.trigger record.id ⟨l.records.length⟩).entries = _
    have hmap : (j.registrations.rtake room).map j.entryOf ++
        [Entry.inProgress record.id ⟨l.records.length⟩] =
        (j.registrations.rtake room ++ [(record.id, Handle.mk l.records.length)]).map
          j.entryOf := by
      rw [List.map_append, ← hentry]
      rfl
    rw [History.trigger_entries (h.capacity ▸ h.length_le), h.capacity, h.entries, hregs,
      Journal.entryOf_congr hcs, hmap, rtake_map, rtake_rtake_concat]

/-- What was registered and is not retained is older than everything retained. -/
theorem retained_later {room : Nat} {j : Journal} {l : Ledger} (ht : Tracked j l)
    {r : Nat × Handle} (hr : r ∈ j.registrations)
    (hgone : ∀ s ∈ j.registrations.rtake room, s.1 ≠ r.1) :
    (j.registrations.rtake room).length = room ∧
      ∀ s ∈ j.registrations.rtake room, r.1 < s.1 := by
  have hsplit := List.take_append_drop (j.registrations.length - room) j.registrations
  have hinc := ht.increasing
  rw [← hsplit] at hr hinc
  -- what is not among the last is among those before them
  have hfront : r ∈ j.registrations.take (j.registrations.length - room) := by
    rcases List.mem_append.mp hr with hr | hr
    · exact hr
    · exact absurd rfl (hgone r hr)
  refine ⟨?_, fun s hs => (List.pairwise_append.mp hinc).2.2 r hfront s hs⟩
  have hpos := List.length_pos_of_mem hfront
  rw [List.length_take] at hpos
  rw [length_rtake]
  omega

theorem retained_conclude {room : Nat} {j : Journal} {l : Ledger} (ht : Tracked j l)
    (h : Retained room j l) {c : Conclusion} {handle : Handle}
    (hc : l.inProgress? c.id = some handle) :
    Retained room (j ++ [.concluded c]) (l.book c) := by
  obtain ⟨hmem, hnew⟩ := ht.mem_iff.mp hc
  have hregs := j.registrations_concluded c
  refine ⟨?_, ?_⟩
  · rw [book_history, History.conclude_eq]
    exact (History.remember_capacity _ c).trans h.capacity
  · rw [book_history, hregs]
    by_cases hkept : ∃ r ∈ j.registrations.rtake room, r.1 = c.id
    · -- replaced in its place, and no other entry is of that id
      obtain ⟨r, hr, hid⟩ := hkept
      have hroom : l.history.capacity ≠ 0 := by
        intro hzero
        rw [h.capacity] at hzero
        rw [hzero, List.rtake_zero] at hr
        exact absurd hr List.not_mem_nil
      have hthere : ∃ e ∈ l.history.entries, e.id = c.id := by
        refine ⟨j.entryOf r, ?_, by rw [Journal.entryOf_id, hid]⟩
        rw [h.entries]
        exact List.mem_map_of_mem hr
      rw [History.conclude_retained hroom hthere, h.entries, List.map_map]
      refine List.map_congr_left (fun s _ => ?_)
      show (if (j.entryOf s).id = c.id then _ else _) = _
      rw [Journal.entryOf_id, Journal.entryOf_concluded hnew]
    · -- not retained any more: the history stays as it is
      have hgone : ∀ s ∈ j.registrations.rtake room, s.1 ≠ c.id :=
        fun s hs hid => hkept ⟨s, hs, hid⟩
      obtain ⟨hfull, hlater⟩ := retained_later ht hmem hgone
      have hsame : (l.history.conclude c).entries = l.history.entries := by
        refine History.conclude_evicted ?_ ?_
        · rw [h.entries, List.length_map, hfull, h.capacity]
        · rw [h.entries]
          intro e he
          obtain ⟨s, hs, rfl⟩ := List.mem_map.mp he
          rw [Journal.entryOf_id]
          exact hlater s hs
      rw [hsame, h.entries]
      refine List.map_congr_left (fun s hs => ?_)
      rw [Journal.entryOf_concluded hnew, if_neg (hgone s hs)]

/-- **Preserved by every turn.** -/
theorem retained_turn {room : Nat} {j : Journal} {l l' : Ledger} {p : Option Posting}
    {effects : List Effect} (hturn : Turn l p effects l') (ht : Tracked j l) (h : Retained room j l) :
    Retained room (j ++ p.toList) l' := by
  rcases hturn.checkpoints with
    ⟨hr, hc, hsame⟩ | ⟨record, hfree, rfl, rfl⟩ | ⟨c, handle, hc, rfl, rfl⟩
  · have hregs : Journal.registrations (j ++ p.toList) = j.registrations := by
      rw [Journal.registrations_append, hr, List.append_nil]
    have hcs : Journal.conclusions (j ++ p.toList) = j.conclusions := by
      rw [Journal.conclusions_append, hc, List.append_nil]
    exact ⟨by rw [hsame.history, h.capacity],
      by rw [hsame.history, hregs, Journal.entryOf_congr hcs, h.entries]⟩
  · exact retained_register h record (ht.not_concluded_of_free hfree)
  · exact retained_conclude ht h hc

theorem retained_run (config : Config) (ops : List Operation) :
    Retained config.historySize ((new config).journal ops) ((new config).after ops) := by
  refine (journal_induction (motive := fun j l => Tracked j l ∧ Retained config.historySize j l)
    _ ⟨tracked_new config, retained_new config⟩ ?_ ops).2
  intro past l p effects l' hturn h
  exact ⟨tracked_turn hturn h.1, retained_turn hturn h.1 h.2⟩

/-! ## What the history shows -/

/--
How a registered checkpoint is shown: as in progress under the handle it was
registered with, for as long as it is in progress, and then by the one conclusion
that was accepted for it.
-/
inductive Shows (j : Journal) (l : Ledger) : Nat × Handle → Entry → Prop where
  | inProgress {id : Nat} {handle : Handle} (h : l.inProgress? id = some handle) :
      Shows j l (id, handle) (.inProgress id handle)
  | concluded {id : Nat} {handle : Handle} {c : Conclusion} (h : l.inProgress? id = none)
      (hc : j.conclusions.filter (·.id == id) = [c]) : Shows j l (id, handle) (.concluded c)

/-- Among ends of different checkpoints, the one that is found is the only one. -/
theorem filter_of_find? {cs : List Conclusion} (h : (cs.map (·.id)).Nodup) {id : Nat}
    {c : Conclusion} (hc : cs.find? (·.id == id) = some c) : cs.filter (·.id == id) = [c] := by
  induction cs with
  | nil => exact absurd hc (by simp)
  | cons first rest ih =>
    obtain ⟨hnew, hrest⟩ := List.nodup_cons.mp h
    rw [List.find?_cons] at hc
    rw [List.filter_cons]
    by_cases hid : (first.id == id) = true
    · rw [hid] at hc
      have hnone : rest.filter (·.id == id) = [] := by
        rw [List.filter_eq_nil_iff]
        intro d hd hdid
        refine hnew (List.mem_map.mpr ⟨d, hd, ?_⟩)
        exact (beq_iff_eq.mp hdid).trans (beq_iff_eq.mp hid).symm
      rw [if_pos hid, hnone, Option.some.inj hc]
    · rw [Bool.eq_false_iff.mpr hid] at hc
      rw [if_neg hid, ih hrest hc]

theorem shows_entryOf {j : Journal} {l : Ledger} (ht : Tracked j l) {r : Nat × Handle}
    (hr : r ∈ j.registrations) : Shows j l r (j.entryOf r) := by
  obtain ⟨id, handle⟩ := r
  unfold Journal.entryOf
  split
  · rename_i c hc
    have hcid : (c.id == id) = true := List.find?_some (p := fun d : Conclusion => d.id == id) hc
    have hid : id ∈ j.concludedIds :=
      List.mem_map.mpr ⟨c, List.mem_of_find?_eq_some hc, beq_iff_eq.mp hcid⟩
    refine .concluded ?_ (filter_of_find? ht.once hc)
    cases hopen : l.inProgress? id with
    | none => rfl
    | some other => exact absurd hid (ht.mem_iff.mp hopen).2
  · rename_i hnone
    refine .inProgress (ht.mem_iff.mpr ⟨hr, fun hid => ?_⟩)
    obtain ⟨c, hc, hcid⟩ := List.mem_map.mp hid
    exact List.find?_eq_none.mp hnone c hc (beq_iff_eq.mpr hcid)

theorem retained_ids {room : Nat} {j : Journal} {l : Ledger} (h : Retained room j l) :
    l.history.entries.map (·.id) = (j.registrations.rtake room).map Prod.fst := by
  rw [h.entries, List.map_map]
  exact List.map_congr_left (fun r _ => Journal.entryOf_id j r)

theorem retained_ids_increase {room : Nat} {j : Journal} {l : Ledger} (ht : Tracked j l)
    (h : Retained room j l) : (l.history.entries.map (·.id)).Pairwise (· < ·) := by
  rw [retained_ids h, List.pairwise_map]
  exact ht.increasing.sublist (List.drop_sublist _ _)

theorem find?_history_isSome_iff {room : Nat} {j : Journal} {l : Ledger} (h : Retained room j l)
    (id : Nat) :
    (l.history.find? id).isSome ↔ id ∈ (j.registrations.rtake room).map Prod.fst := by
  rw [← retained_ids h, History.find?, List.find?_isSome, List.mem_map]
  constructor
  · rintro ⟨e, he, hid⟩
    exact ⟨e, he, beq_iff_eq.mp hid⟩
  · rintro ⟨e, he, hid⟩
    exact ⟨e, he, beq_iff_eq.mpr hid⟩

/-- A checkpoint that is not among the last ones is not among them later either. -/
theorem not_mem_rtake_append {room : Nat} {earlier later : List (Nat × Handle)}
    (hinc : (earlier ++ later).Pairwise (fun a b => a.1 < b.1)) {id : Nat}
    (hid : id ∈ earlier.map Prod.fst) (hgone : id ∉ (earlier.rtake room).map Prod.fst) :
    id ∉ ((earlier ++ later).rtake room).map Prod.fst := by
  intro hback
  obtain ⟨r, hr, rfl⟩ := List.mem_map.mp hid
  obtain ⟨s, hs, hsr⟩ := List.mem_map.mp hback
  rw [List.rtake, List.drop_append, List.mem_append] at hs
  rcases hs with hs | hs
  · -- what is dropped now contains what was dropped before
    have hle : earlier.length - room ≤ (earlier ++ later).length - room := by
      rw [List.length_append]
      omega
    exact hgone (List.mem_map.mpr ⟨s, (List.drop_subset_drop_left earlier hle) hs, hsr⟩)
  · have := (List.pairwise_append.mp hinc).2.2 r hr s (List.mem_of_mem_drop hs)
    omega

/--
**The history is the end of the journal.** It shows the last registrations, as
many as there is room for and in their order, each by how it stands. So it never
holds more than that and no checkpoint twice. Asked for all entries it gives them
latest first, and asked for a checkpoint it gives its entry, if it is one of these; and
a checkpoint that went is not put back by its end.
-/
theorem history_shows_last_registrations (config : Config) (ops : List Operation) :
    let j := (new config).journal ops
    let l := (new config).after ops
    let kept := j.registrations.rtake config.historySize
    j.registrations.Pairwise (fun a b => a.1 < b.1) ∧
    kept.length = min config.historySize j.registrations.length ∧
    List.Forall₂ (Shows j l) kept l.history.entries ∧
    l.history.entries.length ≤ config.historySize ∧
    (l.history.entries.map (·.id)).Nodup ∧
    l.history.latestFirst = l.history.entries.reverse ∧
    l.history.latestFirst.Pairwise (fun a b => b.id < a.id) ∧
    (∀ id e, l.history.find? id = some e ↔ e ∈ l.history.entries ∧ e.id = id) ∧
    (∀ id, (l.history.find? id).isSome ↔ id ∈ kept.map Prod.fst) ∧
    ∀ before rest, ops = before ++ rest → ∀ r ∈ ((new config).journal before).registrations,
      ((new config).after before).history.find? r.1 = none → l.history.find? r.1 = none := by
  intro j l kept
  have ht : Tracked j l := tracked_run config ops
  have h : Retained config.historySize j l := retained_run config ops
  have hids := retained_ids_increase ht h
  have hnodup : (l.history.entries.map (·.id)).Nodup := hids.imp (fun hlt => Nat.ne_of_lt hlt)
  refine ⟨ht.increasing, length_rtake _ _, ?_, h.length_le, hnodup, rfl, ?_,
    fun id e => History.find?_eq_some_iff hnodup, find?_history_isSome_iff h, ?_⟩
  · rw [h.entries, List.forall₂_map_right_iff, List.forall₂_same]
    exact fun r hr => shows_entryOf ht (List.mem_of_mem_drop hr)
  · rw [History.latestFirst, List.pairwise_reverse]
    exact List.pairwise_map.mp hids
  · intro before rest hops r hr hgone
    have h0 : Retained config.historySize ((new config).journal before)
        ((new config).after before) := retained_run config before
    have hregs : j.registrations = ((new config).journal before).registrations ++
        (((new config).after before).journal rest).registrations := by
      show ((new config).journal ops).registrations = _
      rw [hops, journal_append, Journal.registrations_append]
    have hold : r.1 ∉ (((new config).journal before).registrations.rtake
        config.historySize).map Prod.fst := by
      rw [← find?_history_isSome_iff h0, hgone]
      exact Bool.false_ne_true
    have hnew := not_mem_rtake_append (hregs ▸ ht.increasing) (List.mem_map_of_mem hr) hold
    rw [← hregs, ← find?_history_isSome_iff h] at hnew
    exact Option.not_isSome_iff_eq_none.mp hnew

/-- Room for one checkpoint; the first ends when the second has taken its place. -/
def evictedRun : List Operation :=
  [.registerBare 1, .registerBare 2, .reportCompleted (.bare 1)]

/-- The end of the first is accepted, and the history goes on showing the second. -/
theorem evictedRun_shows_second :
    ((new ⟨1⟩).journal evictedRun).concludedIds = [1] ∧
    ((new ⟨1⟩).after evictedRun).history.entries = [.inProgress 2 ⟨1⟩] ∧
    ((new ⟨1⟩).after evictedRun).history.find? 1 = none :=
  ⟨rfl, rfl, (history_shows_last_registrations ⟨1⟩ evictedRun).2.2.2.2.2.2.2.2.2
    (evictedRun.take 2) (evictedRun.drop 2) rfl (1, ⟨0⟩) List.mem_cons_self rfl⟩

end Ledger

end CheckpointLedger
