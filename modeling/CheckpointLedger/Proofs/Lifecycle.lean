import CheckpointLedger.Proofs.Quiet

/-!
# The life of a checkpoint

Of all that was accepted in a run, what concerns one checkpoint is one of three
things (`Life`): nothing; its registration; or its registration and, after that, one
conclusion. In the second of these it is in progress, under the handle that the
registration gave out, and in the others it is not. No operation leads back: a
conclusion needs a checkpoint in progress, and a registration needs an id above all
earlier ones.

The history has no part in this. Whether it still shows a checkpoint, or has room for
any, does not matter to the map of those in progress.

A handle is a place among the records, and no operation moves a record. So the handle
under which a checkpoint is in progress stands for the record that was handed out for
it, and for no other (`Handed`).
-/

namespace CheckpointLedger

/-- The checkpoint that a posting is about. -/
def Posting.checkpoint? : Posting → Option Nat
  | registered record _ => some record.id
  | concluded c => some c.id
  | _ => none

/-- The record that is handed out. -/
def Posting.record? : Posting → Option Pending
  | registered record _ => some record
  | _ => none

namespace Journal

/-- What was accepted about one checkpoint. -/
def about (j : Journal) (id : Nat) : Journal := j.filter (·.checkpoint? == some id)

theorem about_append (j k : Journal) (id : Nat) : about (j ++ k) id = j.about id ++ k.about id :=
  List.filter_append ..

/-- What is about another checkpoint, or none, is not about this one. -/
theorem about_concat_of_ne (j : Journal) {p : Posting} {id : Nat} (h : p.checkpoint? ≠ some id) :
    about (j ++ [p]) id = j.about id := by
  rw [about_append, about, about, List.filter_cons_of_neg (by simpa using h), List.filter_nil,
    List.append_nil]

theorem about_concat_self (j : Journal) {p : Posting} {id : Nat} (h : p.checkpoint? = some id) :
    about (j ++ [p]) id = j.about id ++ [p] := by
  rw [about_append, about, about, List.filter_cons_of_pos (by simpa using h), List.filter_nil]

theorem mem_registrations_of_about {j : Journal} {record : Pending} {handle : Handle} {id : Nat}
    (h : .registered record handle ∈ j.about id) : (record.id, handle) ∈ j.registrations :=
  List.mem_filterMap.mpr ⟨_, (List.mem_filter.mp h).1, rfl⟩

end Journal

/--
How far a checkpoint can have come: what was accepted about it, and the handle under
which it is in progress.
-/
inductive Life (id : Nat) : Journal → Option Handle → Prop where
  | unknown : Life id [] none
  | inProgress {record : Pending} {handle : Handle} (h : record.id = id) :
      Life id [.registered record handle] (some handle)
  | concluded {record : Pending} {handle : Handle} {c : Conclusion} (h : record.id = id)
      (hc : c.id = id) : Life id [.registered record handle, .concluded c] none

namespace Ledger

/-! ## One step in the life of a checkpoint -/

/-- A registration is the first that is accepted about a checkpoint. -/
theorem Tracked.unknown_of_free {j : Journal} {l : Ledger} (ht : Tracked j l) {id : Nat}
    (hlife : Life id (j.about id) (l.inProgress? id))
    (hfree : ∀ last, l.lastId = some last → last < id) : j.about id = [] := by
  have hnever : ∀ record handle, Posting.registered record handle ∈ j.about id →
      record.id = id → False := by
    intro record handle hmem hid
    have hlt := ht.lt_of_free hfree _ (Journal.mem_registrations_of_about hmem)
    exact Nat.lt_irrefl _ (hid ▸ hlt)
  generalize j.about id = past, l.inProgress? id = open? at hlife hnever
  cases hlife with
  | unknown => rfl
  | inProgress h => exact absurd h (hnever _ _ List.mem_cons_self)
  | concluded h _ => exact absurd h (hnever _ _ List.mem_cons_self)

/-- **Every turn takes a checkpoint one step further, or leaves it where it is.** -/
theorem life_turn {j : Journal} {l l' : Ledger} {p : Option Posting} {effects : List Effect}
    (hturn : Turn l p effects l') (ht : Tracked j l) {id : Nat}
    (h : Life id (j.about id) (l.inProgress? id)) :
    Life id (Journal.about (j ++ p.toList) id) (l'.inProgress? id) := by
  rcases hturn.checkpoints with
    ⟨hr, hc, hsame⟩ | ⟨record, hfree, rfl, rfl⟩ | ⟨c, handle, hopen, rfl, rfl⟩
  · -- nothing of it is about checkpoints
    have hnone : Journal.about p.toList id = [] := by
      cases p with
      | none => rfl
      | some p =>
        cases p with
        | registered record handle => exact absurd hr (List.cons_ne_nil _ _)
        | concluded c => exact absurd hc (List.cons_ne_nil _ _)
        | _ => rfl
    rw [Journal.about_append, hnone, List.append_nil]
    show Life id _ (l'.inProgress.find? id)
    rw [hsame.inProgress]
    exact h
  · have hfind : (l.enter record).inProgress? id =
        if id = record.id then some ⟨l.records.length⟩ else l.inProgress? id :=
      OrderedMap.find?_insert l.inProgress record.id id _
    rw [hfind]
    by_cases hid : id = record.id
    · subst hid
      rw [if_pos rfl]
      have hempty := ht.unknown_of_free h hfree
      show Life _ (Journal.about (j ++ [_]) _) _
      rw [Journal.about_concat_self j rfl, hempty]
      exact .inProgress rfl
    · rw [if_neg hid]
      have hother : (Posting.registered record ⟨l.records.length⟩).checkpoint? ≠ some id :=
        fun he => hid (Option.some.inj he).symm
      show Life _ (Journal.about (j ++ [_]) _) _
      rw [Journal.about_concat_of_ne j hother]
      exact h
  · show Life id (Journal.about (j ++ [_]) id) ((l.book c).inProgress.find? id)
    rw [book_inProgress]
    by_cases hid : c.id = id
    · subst hid
      rw [Journal.about_concat_self j rfl]
      have hgone : (l.inProgress.erase c.id).find? c.id = none :=
        OrderedMap.find?_alter_self l.inProgress c.id _
      rw [hgone]
      rw [hopen] at h
      generalize j.about c.id = past at h
      cases h with
      | inProgress hrecord => exact .concluded hrecord rfl
    · have hstays : (l.inProgress.erase c.id).find? id = l.inProgress? id :=
        OrderedMap.find?_alter_of_ne l.inProgress (Ne.symm hid) _
      have hother : (Posting.concluded c).checkpoint? ≠ some id := fun he => hid (Option.some.inj he)
      rw [hstays, Journal.about_concat_of_ne j hother]
      exact h

theorem life_run (config : Config) (ops : List Operation) (id : Nat) :
    Life id (((new config).journal ops).about id) (((new config).after ops).inProgress? id) := by
  refine (journal_induction
    (motive := fun j l => Tracked j l ∧ Life id (j.about id) (l.inProgress? id)) _
    ⟨tracked_new config, .unknown⟩ ?_ ops).2
  intro past l p effects l' hturn h
  exact ⟨tracked_turn hturn h.1, life_turn hturn h.1 h.2⟩

/-! ## Handles and their records -/

/-- Of what is posted only a registration is about records: it appends one. -/
theorem records_of_posted {l l' : Ledger} {p : Posting} {effects : List Effect}
    (h : Turn l (some p) effects l') : l'.records = l.records ++ p.record?.toList := by
  have hsettle (l : Ledger) (g : Generation) : (l.settle g).1.records = l.records := by
    rw [settle_fst]
  cases h with
  | registered _ => rfl
  | concluded _ => rw [book_records]; exact (List.append_nil _).symm
  | untriggered hl => rw [hl]; exact (List.append_nil _).symm
  | began => exact (List.append_nil _).symm
  | measured _ _ => rw [hsettle]; exact (List.append_nil _).symm
  | restored _ _ hl => rw [hsettle, hl]; exact (List.append_nil _).symm

/-- Records change, but never the checkpoint they are records of. -/
theorem ids_of_quiet {l l' : Ledger} {o : Operation} (h : Quiet l o l') :
    l'.records.map (·.id) = l.records.map (·.id) := by
  cases h with
  | declined => rfl
  | @kept _ handle record record' hrecord hnext =>
    show (l.records.set handle.index record').map (·.id) = _
    rw [List.map_set, hnext.id_eq]
    obtain ⟨hlt, hat⟩ := List.getElem?_eq_some_iff.mp hrecord
    rw [← List.length_map (·.id)] at hlt
    have hid : record.id = (l.records.map (·.id))[handle.index] := by
      rw [List.getElem_map, hat]
    rw [hid, List.set_getElem_self]
  | shown =>
    unfold snapshot
    split <;> rfl

/-- Handles are given out in order, one for each record. -/
structure Handed (j : Journal) (l : Ledger) : Prop where
  /-- The first is the first place, and so on. -/
  handles : j.registrations.map (·.2.index) = List.range j.registrations.length
  /-- In that place is a record of the checkpoint. -/
  ids : l.records.map (·.id) = j.registrations.map Prod.fst

theorem Handed.posted {j : Journal} {l l' : Ledger} {p : Posting} {effects : List Effect}
    (h : Handed j l) (hturn : Turn l (some p) effects l') : Handed (j ++ [p]) l' := by
  have hrecords := records_of_posted hturn
  have hbeside (hregs : Journal.registrations [p] = []) (hnone : p.record? = none) :
      Handed (j ++ [p]) l' := by
    rw [hnone, Option.toList_none, List.append_nil] at hrecords
    have hsame : Journal.registrations (j ++ [p]) = j.registrations := by
      rw [Journal.registrations_append, hregs, List.append_nil]
    exact ⟨by rw [hsame, h.handles], by rw [hrecords, hsame, h.ids]⟩
  cases p with
  | registered record handle =>
    cases hturn with
    | registered _ =>
      have hlength : l.records.length = j.registrations.length := by
        rw [← List.length_map (·.id), h.ids, List.length_map]
      refine ⟨?_, ?_⟩
      · rw [Journal.registrations_registered, List.map_append, h.handles, List.length_append,
          List.length_singleton, List.range_succ, ← hlength]
        rfl
      · rw [hrecords, Journal.registrations_registered, List.map_append, List.map_append, h.ids]
        rfl
  | _ => exact hbeside rfl rfl

theorem handed_run (config : Config) (ops : List Operation) :
    Handed ((new config).journal ops) ((new config).after ops) := by
  refine quiet_induction (motive := Handed) _ ⟨rfl, rfl⟩ ?_ ?_ ops
  · exact fun _ _ _ _ _ hturn h => h.posted hturn
  · exact fun _ _ _ _ hquiet h => ⟨h.handles, (ids_of_quiet hquiet).trans h.ids⟩

/-- A handle that was given out stands for a record of its checkpoint. -/
theorem Handed.record {j : Journal} {l : Ledger} (h : Handed j l) {r : Nat × Handle}
    (hr : r ∈ j.registrations) : ∃ record, l.record? r.2 = some record ∧ record.id = r.1 := by
  obtain ⟨n, hn⟩ := List.mem_iff_getElem?.mp hr
  -- its place among the registrations is the place that the handle names
  have hindex : r.2.index = n := by
    have hat : (j.registrations.map (·.2.index))[n]? = some r.2.index := by
      rw [List.getElem?_map, hn]
      rfl
    rw [h.handles] at hat
    exact (List.getElem?_eq_some_iff.mp hat).2.symm.trans (List.getElem_range _)
  have hid : (l.records.map (·.id))[n]? = some r.1 := by
    rw [h.ids, List.getElem?_map, hn]
    rfl
  rw [List.getElem?_map, Option.map_eq_some_iff] at hid
  obtain ⟨record, hrecord, hid⟩ := hid
  exact ⟨record, by rw [record?, hindex, hrecord], hid⟩

theorem Handed.nodup_handles {j : Journal} {l : Ledger} (h : Handed j l) :
    (j.registrations.map Prod.snd).Nodup := by
  have hindices : ((j.registrations.map Prod.snd).map Handle.index).Nodup := by
    rw [List.map_map]
    show (j.registrations.map (·.2.index)).Nodup
    rw [h.handles]
    exact List.nodup_range
  exact List.Pairwise.of_map Handle.index (fun a b hne he => hne (congrArg Handle.index he)) hindices

/-! ## The whole life -/

theorem Tracked.inProgress?_concluded {j : Journal} {l : Ledger} (h : Tracked j l) {id : Nat}
    (hid : id ∈ j.concludedIds) : l.inProgress? id = none := by
  cases hopen : l.inProgress? id with
  | none => rfl
  | some handle => exact absurd hid (h.mem_iff.mp hopen).2

/-- The handle that is posted is the one that was answered. -/
theorem answer_of_registered {o : Operation} {a : Answer} {record : Pending} {handle : Handle}
    (h : o.posting? a = some (.registered record handle)) : a = .registered handle := by
  unfold Operation.posting? at h
  split at h
  · obtain ⟨_, hhandle⟩ := Posting.registered.inj (Option.some.inj h)
    rw [hhandle]
  all_goals exact absurd h (by simp)

/-- What is posted as registered was entered, under an id above all others. -/
theorem enter_of_registered {l : Ledger} {o : Operation} {record : Pending} {handle : Handle}
    (h : l.posting? o = some (.registered record handle)) :
    (∀ last, l.lastId = some last → last < record.id) ∧ handle = ⟨l.records.length⟩ ∧
      (l.perform o).ledger = l.enter record := by
  have hturn := turn_of_posted h
  generalize (l.perform o).ledger = l' at hturn ⊢
  generalize (l.perform o).outward = effects at hturn
  cases hturn with
  | registered hfree => exact ⟨hfree, rfl, rfl⟩

/--
**A checkpoint lives once.** After any run, what was accepted about a checkpoint is
nothing, its registration, or its registration and then one conclusion, and exactly
in the second case it is in progress, under the handle of its registration. Ids are
registered in increasing order, each with a handle of its own, which goes on to stand
for the record of that checkpoint. A checkpoint that was concluded is not in progress
again, whatever follows. And what is registered has an id above all earlier ones, is
not in the map before, and is then, as one more.
-/
theorem checkpoint_lives_once (config : Config) (ops : List Operation) :
    let j := (new config).journal ops
    let l := (new config).after ops
    (∀ id, Life id (j.about id) (l.inProgress? id)) ∧
    j.registrations.Pairwise (fun a b => a.1 < b.1) ∧
    (j.registrations.map Prod.snd).Nodup ∧
    (∀ r ∈ j.registrations, ∃ record, l.record? r.2 = some record ∧ record.id = r.1) ∧
    (∀ later, ∀ id ∈ j.concludedIds, (l.after later).inProgress? id = none) ∧
    ∀ o record handle, l.posting? o = some (.registered record handle) →
      (l.perform o).answer = .registered handle ∧ (∀ r ∈ j.registrations, r.1 < record.id) ∧
      l.inProgress? record.id = none ∧
      (l.perform o).ledger.inProgress? record.id = some handle ∧
      (l.perform o).ledger.inProgress.size = l.inProgress.size + 1 := by
  intro j l
  have ht : Tracked j l := tracked_run config ops
  have hhanded : Handed j l := handed_run config ops
  refine ⟨life_run config ops, ht.increasing, hhanded.nodup_handles,
    fun r hr => hhanded.record hr, fun later id hid => ?_, fun o record handle hposted => ?_⟩
  · -- the journal goes on, and so does what was concluded
    have hlater := tracked_run config (ops ++ later)
    rw [journal_append, after_append] at hlater
    refine hlater.inProgress?_concluded ?_
    rw [Journal.concludedIds_append]
    exact List.mem_append_left _ hid
  · obtain ⟨hfree, rfl, hledger⟩ := enter_of_registered hposted
    have hlt := ht.lt_of_free hfree
    have hsize := ht.size_inProgress
    have hsize' := (tracked_register ht hfree).size_inProgress
    rw [Journal.registrations_registered, Journal.conclusions_registered, List.length_append,
      List.length_singleton] at hsize'
    rw [hledger]
    refine ⟨answer_of_registered hposted, hlt, ?_, ?_, by omega⟩
    · cases hopen : l.inProgress? record.id with
      | none => rfl
      | some handle => exact absurd (hlt _ (ht.mem_iff.mp hopen).1) (Nat.lt_irrefl _)
    · exact OrderedMap.find?_alter_self l.inProgress record.id _

/-- No room in the history; one checkpoint ends and another stays in progress. -/
def unseenRun : List Operation :=
  [.registerBare 3, .registerBare 5, .reportCompleted (.bare 3)]

/--
The history shows neither; one of them is in progress none the less. The other does
not come back, nor does its id, and the next one has a greater id.
-/
theorem unseenRun_in_progress :
    ((new ⟨0⟩).after unseenRun).history.entries = [] ∧
    ((new ⟨0⟩).after unseenRun).inProgress? 5 = some ⟨1⟩ ∧
    (((new ⟨0⟩).after unseenRun).after [.registerBare 3]).inProgress? 3 = none ∧
    ((new ⟨0⟩).after unseenRun).inProgress? 6 = none ∧
    (((new ⟨0⟩).after unseenRun).perform (.registerBare 6)).ledger.inProgress? 6 = some ⟨2⟩ := by
  obtain ⟨_, _, _, _, hlater, hregistered⟩ := checkpoint_lives_once ⟨0⟩ unseenRun
  obtain ⟨_, _, hnew, hthen, _⟩ := hregistered (.registerBare 6) _ ⟨2⟩ rfl
  exact ⟨rfl, rfl, hlater [.registerBare 3] 3 (by decide), hnew, hthen⟩

end Ledger

end CheckpointLedger
