import CheckpointLedger.Proofs.Confluence
import CheckpointLedger.Proofs.Visits

/-!
# Two ways for a report

A subtask reports to the holder of a handle, or to the ledger under the id of the
checkpoint. The two are turned away for different reasons: the ledger lets no report
through for a checkpoint that is **not in progress**, and the record takes none once its
**result was given**. These are different times. A result can be given long before it is
reported, and then both ways lead to the record, which declines.

The other order needs that ends are not made up. If every end that is reported is a
result that was given (`Faithful`), then a checkpoint that is not in progress any more
was asked for its result before, so its record declines, too (`finalized_of_ended`).
-/

namespace CheckpointLedger

/-- How a checkpoint ended, if that is the answer. -/
def Answer.conclusion? : Answer → Option Conclusion
  | concluded c => some c
  | _ => none

theorem Answer.eq_of_conclusion? {a : Answer} {c : Conclusion} (h : c ∈ a.conclusion?.toList) :
    a = .concluded c := by
  cases a with
  | concluded c' => rw [List.mem_singleton.mp h]
  | _ => exact absurd h List.not_mem_nil

namespace Ledger

/-- The results that were given. -/
def results (l : Ledger) (ops : List Operation) : List Conclusion :=
  (l.run ops).filterMap (·.answer.conclusion?)

theorem results_concat (l : Ledger) (ops : List Operation) (o : Operation) :
    l.results (ops ++ [o]) =
      l.results ops ++ ((l.after ops).perform o).answer.conclusion?.toList := by
  rw [results, run_concat]
  exact Journal.filterMap_concat _ _ _

/-- Every end that is reported is a result that was given before. -/
def Faithful (l : Ledger) (ops : List Operation) : Prop :=
  ∀ before o rest, ops = before ++ o :: rest → ∀ c ∈ o.conclusion?, c ∈ l.results before

theorem faithful_nil (l : Ledger) : l.Faithful [] := by
  intro before o rest he
  exact absurd he (by simp)

theorem faithful_concat {l : Ledger} {ops : List Operation} {o : Operation} :
    l.Faithful (ops ++ [o]) ↔
      l.Faithful ops ∧ ∀ c ∈ o.conclusion?, c ∈ l.results ops := by
  constructor
  · intro h
    refine ⟨fun before q rest hops => h before q (rest ++ [o]) ?_, h ops o [] rfl⟩
    rw [hops, List.append_assoc]
    rfl
  · rintro ⟨hops, ho⟩ before q rest he
    rcases List.eq_nil_or_concat rest with rfl | ⟨rest, last, rfl⟩
    · obtain ⟨rfl, hlast⟩ := List.append_inj' he rfl
      rw [← List.head_eq_of_cons_eq hlast]
      exact ho
    · rw [List.concat_eq_append, ← List.cons_append, ← List.append_assoc] at he
      obtain ⟨rfl, -⟩ := List.append_inj' he rfl
      exact hops before q rest rfl

/-! ## Whose result was given -/

/-- Every handle that stands for a record was given out. -/
theorem Handed.registration {j : Journal} {l : Ledger} (h : Handed j l) {handle : Handle}
    {p : Pending} (hp : l.record? handle = some p) : (p.id, handle) ∈ j.registrations := by
  have hlt : handle.index < j.registrations.length := by
    have hlength := congrArg List.length h.ids
    rw [List.length_map, List.length_map] at hlength
    exact hlength ▸ (List.getElem?_eq_some_iff.mp hp).1
  have hmem := List.getElem_mem hlt
  have hhandle : j.registrations[handle.index].2 = handle := by
    have hat : (j.registrations.map (·.2.index))[handle.index]? = some handle.index := by
      rw [h.handles, List.getElem?_range hlt]
    rw [List.getElem?_map, List.getElem?_eq_getElem hlt] at hat
    exact congrArg Handle.mk (Option.some.inj hat)
  obtain ⟨record, hrecord, hid⟩ := h.record hmem
  rw [hhandle, hp] at hrecord
  rw [Option.some.inj hrecord, hid]
  have heq : j.registrations[handle.index] = (j.registrations[handle.index].1, handle) :=
    Prod.ext rfl hhandle
  exact heq ▸ hmem

/-- Who is answered with a result asked a record for it. -/
theorem asked_of_concluded {l : Ledger} {o : Operation} {c : Conclusion}
    (h : (l.perform o).answer = .concluded c) :
    ∃ handle p, o.asked? = some handle ∧ l.record? handle = some p := by
  have hother {α : Type} {f : α → Answer} (hf : ∀ a, f a ≠ .concluded c) (x : Except Error α) :
      Answer.ofExcept f x ≠ .concluded c := by
    cases x with
    | ok a => exact hf a
    | error e => exact nofun
  cases o with
  | complete handle pointer metadataSize =>
    cases hp : l.record? handle with
    | some p => exact ⟨handle, p, rfl, hp⟩
    | none =>
      simp [perform, complete, conclude, hp, Step.map] at h
  | fail handle failureTime message =>
    cases hp : l.record? handle with
    | some p => exact ⟨handle, p, rfl, hp⟩
    | none =>
      simp [perform, fail, conclude, hp, Step.map] at h
  | register id trigger properties groups => exact absurd h (hother nofun _)
  | reportCompleted c => exact absurd h (hother nofun _)
  | reportFailed f => exact absurd h (hother nofun _)
  | reportRestored id properties path stateSize => exact absurd h (hother nofun _)
  | _ => cases h

/-- The result is what this record has gathered, and the record is finalized by it. -/
theorem record_of_concluded {l : Ledger} {o : Operation} {c : Conclusion}
    (h : (l.perform o).answer = .concluded c) :
    ∃ handle p, l.record? handle = some p ∧ c.gathered = p.gathered ∧
      (l.perform o).ledger.record? handle = some { p with finalized := true } := by
  obtain ⟨handle, p, hasked, hrecord⟩ := asked_of_concluded h
  rcases visit_asked (r := (p.id, handle)) hrecord hasked with
    ⟨-, ⟨c', hanswer, hc⟩, hgiven⟩ | ⟨-, hrefused, -⟩
  · obtain rfl := Answer.concluded.inj (h.symm.trans hanswer)
    exact ⟨handle, p, hrecord, Operation.gathered_of_resultOf? hc, hgiven⟩
  · rw [h] at hrefused
    cases hrefused

/-- Every result that was given is that of a checkpoint whose record is finalized. -/
def Backed (j : Journal) (l : Ledger) (results : List Conclusion) : Prop :=
  ∀ c ∈ results, ∃ r ∈ j.registrations, r.1 = c.id ∧
    ∃ p, l.record? r.2 = some p ∧ p.finalized = true

theorem backed_run (config : Config) (ops : List Operation) :
    Backed ((new config).journal ops) ((new config).after ops) ((new config).results ops) := by
  induction ops using List.reverseRecOn with
  | nil => exact fun c hc => absurd hc List.not_mem_nil
  | append_singleton ops o ih =>
    intro c hc
    rw [journal_concat, after_concat, Journal.registrations_append]
    rw [results_concat, List.mem_append] at hc
    rcases hc with hc | hc
    · -- it was given before, and the record has not changed since
      obtain ⟨r, hr, hid, p, hrecord, hdone⟩ := ih c hc
      obtain ⟨p', hrecord', hvisit⟩ := visit (known_of_registered hr) hrecord o
      exact ⟨r, List.mem_append_left _ hr, hid, p', hrecord', frozen hvisit hdone ▸ hdone⟩
    · obtain ⟨handle, p, hrecord, hgathered, hgiven⟩ :=
        record_of_concluded (Answer.eq_of_conclusion? hc)
      have hr := (handed_run config ops).registration hrecord
      refine ⟨_, List.mem_append_left _ hr, ?_, _, hgiven, rfl⟩
      exact (congrArg Gathered.id hgathered).symm

/-! ## Whose end was reported -/

/-- What is posted as an end is an end that was reported. -/
theorem conclusion?_of_posted {l : Ledger} {o : Operation} {c : Conclusion}
    (h : c ∈ Journal.conclusions (l.posting? o).toList) : o.conclusion? = some c := by
  obtain ⟨p, hp, hpc⟩ := List.mem_filterMap.mp h
  have hposted := Option.mem_toList.mp hp
  obtain rfl : p = .concluded c := by
    cases p with
    | concluded c' => rw [Option.some.inj hpc]
    | _ => cases hpc
  unfold posting? Operation.posting? at hposted
  split at hposted
  case h_2 => exact congrArg some (Posting.concluded.inj (Option.some.inj hposted))
  case h_3 => exact congrArg some (Posting.concluded.inj (Option.some.inj hposted))
  all_goals exact absurd hposted (by simp)

theorem mem_results_of_concluded {l : Ledger} {ops : List Operation} (h : l.Faithful ops) :
    ∀ c ∈ (l.journal ops).conclusions, c ∈ l.results ops := by
  induction ops using List.reverseRecOn with
  | nil => exact fun c hc => absurd hc List.not_mem_nil
  | append_singleton ops o ih =>
    obtain ⟨hops, ho⟩ := faithful_concat.mp h
    intro c hc
    rw [journal_concat, Journal.conclusions_append, List.mem_append] at hc
    rw [results_concat]
    refine List.mem_append_left _ ?_
    rcases hc with hc | hc
    · exact ih hops c hc
    · exact ho c (conclusion?_of_posted hc)

/-- **A checkpoint that is not in progress any more was asked for its result.** -/
theorem finalized_of_ended {config : Config} {ops : List Operation}
    (h : (new config).Faithful ops) {r : Nat × Handle}
    (hr : r ∈ ((new config).journal ops).registrations) {p : Pending}
    (hrecord : ((new config).after ops).record? r.2 = some p)
    (hended : ((new config).after ops).inProgress? r.1 = none) : p.finalized = true := by
  have ht := tracked_run config ops
  have hid : r.1 ∈ ((new config).journal ops).concludedIds := by
    by_contra hnot
    rw [ht.mem_iff.mpr ⟨hr, hnot⟩] at hended
    cases hended
  obtain ⟨c, hc, hcid⟩ := List.mem_map.mp hid
  obtain ⟨r', hr', hid', p', hrecord', hdone⟩ :=
    backed_run config ops c (mem_results_of_concluded h c hc)
  obtain rfl := List.inj_on_of_nodup_map ht.nodup_ids hr' hr (hid'.trans hcid)
  rw [hrecord] at hrecord'
  rw [Option.some.inj hrecord']
  exact hdone

/--
**It makes no difference which way a report comes.** In a run in which every end that is
reported is a result that was given before, each handle that was given out stands for a
record, and if its checkpoint is not in progress any more, the result of this record was
given. And any report of any subtask has the same answer, and leaves the same ledger with
all its records, whether it comes from the holder of the handle or under the id.
-/
theorem routed_same_as_direct (config : Config) {ops : List Operation}
    (h : (new config).Faithful ops) :
    let j := (new config).journal ops
    let l := (new config).after ops
    ∀ handle ∈ j.registrations.map Prod.snd, ∃ record, l.record? handle = some record ∧
      (l.inProgress? record.id = none → record.finalized = true) ∧
      ∀ vertex report,
        (l.perform (.route record.id vertex report)).answer =
          (l.perform (.acknowledge handle vertex report)).answer ∧
        (l.perform (.route record.id vertex report)).ledger =
          (l.perform (.acknowledge handle vertex report)).ledger := by
  intro j l handle hhandle
  obtain ⟨r, hr, rfl⟩ := List.mem_map.mp hhandle
  obtain ⟨record, hrecord, hid⟩ := (handed_run config ops).record hr
  have hended (hgone : l.inProgress? record.id = none) : record.finalized = true :=
    finalized_of_ended h hr hrecord (hid ▸ hgone)
  refine ⟨record, hrecord, hended, fun vertex report => ?_⟩
  have hknown : Known l r := known_of_registered hr
  cases hopen : l.inProgress? record.id with
  | none =>
    obtain ⟨hdirect, hsame, hrouted, hsame'⟩ :=
      not_taken_of_finalized hknown hrecord (hended hopen) vertex report
    rw [hid, hdirect, hsame, hrouted, hsame']
    exact ⟨rfl, rfl⟩
  | some other =>
    -- the ledger passes the report on to the holder
    have hstep : l.route record.id vertex report = l.acknowledge r.2 vertex report := by
      rw [route, hopen]
      dsimp only
      rw [hknown.handle other (hid ▸ hopen)]
    have hperform : l.perform (.route record.id vertex report) =
        l.perform (.acknowledge r.2 vertex report) := congrArg (Step.map Answer.taken) hstep
    rw [hperform]
    exact ⟨rfl, rfl⟩

/-- One checkpoint is asked for its result, which is reported, and one stays in progress. -/
def faithfulRun : List Operation :=
  [.registerBare 3] ++ [.complete ⟨0⟩ none 0] ++ [.reportCompleted (.bare 3)] ++ [.registerBare 4]

theorem faithfulRun_routes :
    let l := (new ⟨1⟩).after faithfulRun
    (new ⟨1⟩).Faithful faithfulRun ∧ l.inProgress? 3 = none ∧
    (∃ record, l.record? ⟨0⟩ = some record ∧ record.finalized = true) ∧
    ∀ vertex report, (l.perform (.route 4 vertex report)).ledger =
      (l.perform (.acknowledge ⟨1⟩ vertex report)).ledger := by
  intro l
  have hfaithful : (new ⟨1⟩).Faithful faithfulRun := by
    refine faithful_concat.mpr ⟨faithful_concat.mpr ⟨faithful_concat.mpr
      ⟨faithful_concat.mpr ⟨faithful_nil _, ?_⟩, ?_⟩, ?_⟩, ?_⟩ <;> decide
  obtain ⟨first, hfirst, hended, -⟩ :=
    routed_same_as_direct ⟨1⟩ hfaithful ⟨0⟩ (by decide)
  obtain ⟨second, hsecond, -, hsame⟩ :=
    routed_same_as_direct ⟨1⟩ hfaithful ⟨1⟩ (by decide)
  obtain rfl := Option.some.inj hfirst
  obtain rfl := Option.some.inj hsecond
  exact ⟨hfaithful, rfl, ⟨_, rfl, hended rfl⟩, fun vertex report => (hsame vertex report).2⟩

end Ledger

end CheckpointLedger
