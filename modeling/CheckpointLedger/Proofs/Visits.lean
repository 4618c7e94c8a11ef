import CheckpointLedger.Proofs.Lifecycle
import CheckpointLedger.Proofs.Slots

/-!
# What becomes of one record

A record is in the ledger's keeping and is reached in two ways: by its handle, or for a
report by the id of its checkpoint. Here is one checkpoint picked out of all, and what
an operation does to its record, whatever else it does (`Visit`). Most operations pass
by. A report may be **taken**, which fills a slot; and whoever asks for the result is
**given** it or not, depending on whether it was given before.

Both ways lead to the same record, since ids and handles belong together: no id was
registered twice, and no handle was given out twice (`Known`). This is all that is to
be known of the rest of the ledger.

A record whose result was given does not change any more (`frozen_run`).
-/

namespace CheckpointLedger

namespace Operation

/-- The report that an operation brings to a checkpoint of the given id and handle. -/
def report? (r : Nat × Handle) : Operation → Option (VertexId × Report)
  | acknowledge handle vertex report => if handle = r.2 then some (vertex, report) else none
  | route id vertex report => if id = r.1 then some (vertex, report) else none
  | _ => none

/-- The report that the checkpoint has taken, by what was answered. -/
def taken? (r : Nat × Handle) (o : Operation) : Answer → Option (VertexId × Report)
  | .taken true => o.report? r
  | _ => none

/-- Without a report there is none that is taken, whatever is answered. -/
theorem taken?_eq_none {r : Nat × Handle} {o : Operation} (h : o.report? r = none) (a : Answer) :
    o.taken? r a = none := by
  unfold taken?
  split
  · exact h
  · rfl

/-- The record that is asked for its result. -/
def asked? : Operation → Option Handle
  | complete handle _ _ => some handle
  | fail handle _ _ => some handle
  | _ => none

/-- The result that is asked for, of a record that has gathered this. -/
def resultOf? (g : Gathered) : Operation → Option Conclusion
  | complete _ pointer metadataSize => some (.completed { g with pointer, metadataSize })
  | fail _ failureTime message => some (.failed { g with failureTime, message })
  | _ => none

theorem gathered_of_resultOf? {g : Gathered} {o : Operation} {c : Conclusion}
    (h : o.resultOf? g = some c) : c.gathered = g := by
  cases o with
  | complete _ _ _ => rw [← Option.some.inj h]; rfl
  | fail _ _ _ => rw [← Option.some.inj h]; rfl
  | _ => cases h

end Operation

/-- What an operation does to the record of one checkpoint, by its id and handle. -/
inductive Visit (r : Nat × Handle) (p : Pending) (o : Operation) (a : Answer) : Pending → Prop where
  | passed (hasked : o.asked? ≠ some r.2) (htaken : o.taken? r a = none) : Visit r p o a p
  | took {vertex : VertexId} {report : Report} (hasked : o.asked? ≠ some r.2)
      (htaken : o.taken? r a = some (vertex, report)) (h : p.refusal? vertex report = none) :
      Visit r p o a (p.fill vertex report)
  | gave {c : Conclusion} (hasked : o.asked? = some r.2) (hopen : p.finalized = false)
      (hanswer : a = .concluded c) (hc : o.resultOf? p.gathered = some c) :
      Visit r p o a { p with finalized := true }
  | declined (hasked : o.asked? = some r.2) (hdone : p.finalized = true)
      (hanswer : a = .refused (.alreadyFinalized p.id)) : Visit r p o a p

namespace Ledger

/-- A checkpoint that was registered with this id and this handle, and is told by either. -/
structure Known (l : Ledger) (r : Nat × Handle) : Prop where
  /-- If a checkpoint of its id is in progress, it is this one. -/
  handle : ∀ handle, l.inProgress? r.1 = some handle → handle = r.2
  /-- If a checkpoint is in progress under its handle, it is this one. -/
  id : ∀ id, l.inProgress? id = some r.2 → id = r.1

/-- Every registration belongs to a checkpoint that is known. -/
theorem known_of_registered {config : Config} {ops : List Operation} {r : Nat × Handle}
    (hr : r ∈ ((new config).journal ops).registrations) : Known ((new config).after ops) r where
  handle handle hopen := by
    have ht := tracked_run config ops
    have hmem := (ht.mem_iff.mp hopen).1
    exact congrArg Prod.snd (List.inj_on_of_nodup_map ht.nodup_ids hmem hr rfl)
  id id hopen := by
    have hmem := ((tracked_run config ops).mem_iff.mp hopen).1
    have hnodup := (handed_run config ops).nodup_handles
    exact congrArg Prod.fst (List.inj_on_of_nodup_map hnodup hmem hr rfl)

theorem known_later {config : Config} {ops : List Operation} {r : Nat × Handle}
    (hr : r ∈ ((new config).journal ops).registrations) (later : List Operation) :
    Known (((new config).after ops).after later) r := by
  rw [← after_append]
  refine known_of_registered ?_
  rw [journal_append, Journal.registrations_append]
  exact List.mem_append_left _ hr

variable {l : Ledger} {r : Nat × Handle} {p : Pending}

/-! ## One operation -/

theorem record?_keep_self {handle : Handle} (h : l.record? handle = some p) (q : Pending) :
    (l.keep handle q).record? handle = some q :=
  List.getElem?_set_self (List.getElem?_eq_some_iff.mp h).1

theorem record?_keep_of_ne {handle other : Handle} (hne : handle ≠ other) (q : Pending) :
    (l.keep handle q).record? other = l.record? other :=
  List.getElem?_set_ne (fun he => hne (congrArg Handle.mk he))

/-- A report that gets to the holder of a handle is taken by the record of this handle. -/
theorem visit_report (h : l.record? r.2 = some p) {o : Operation} {handle : Handle}
    {vertex : VertexId} {report : Report} (hasked : o.asked? ≠ some r.2)
    (hreport : o.report? r = if handle = r.2 then some (vertex, report) else none) :
    let s := (l.acknowledge handle vertex report).map .taken
    ∃ p', s.ledger.record? r.2 = some p' ∧ Visit r p o s.answer p' := by
  unfold acknowledge Pending.acknowledge
  by_cases hhandle : handle = r.2
  · subst hhandle
    rw [if_pos rfl] at hreport
    rw [h]
    dsimp only
    cases hrefusal : p.refusal? vertex report with
    | none => exact ⟨_, record?_keep_self h _, .took hasked hreport hrefusal⟩
    | some refusal => exact ⟨p, h, .passed hasked rfl⟩
  · rw [if_neg hhandle] at hreport
    -- whatever is answered, it was not for this checkpoint
    have hpassed (taken : Bool) : Visit r p o (.taken taken) p :=
      .passed hasked (Operation.taken?_eq_none hreport _)
    cases l.record? handle with
    | none => exact ⟨p, h, hpassed _⟩
    | some other =>
      dsimp only
      cases other.refusal? vertex report with
      | none => exact ⟨p, (record?_keep_of_ne hhandle _).trans h, hpassed _⟩
      | some refusal => exact ⟨p, h, hpassed _⟩

/-- Asking another record for its result does nothing to this one. -/
theorem record?_asked_other {o : Operation} {handle : Handle} (hasked : o.asked? = some handle)
    (hne : handle ≠ r.2) : (l.perform o).ledger.record? r.2 = l.record? r.2 := by
  have hconclude {α : Type} (ending : Pending → Except Error (α × Pending)) :
      (l.conclude handle ending).ledger.record? r.2 = l.record? r.2 := by
    unfold conclude
    cases l.record? handle with
    | none => rfl
    | some other =>
      dsimp only
      cases ending other with
      | error e => rfl
      | ok result => exact record?_keep_of_ne hne _
  cases o with
  | complete handle' pointer metadataSize =>
    obtain rfl := Option.some.inj hasked
    exact hconclude _
  | fail handle' failureTime message =>
    obtain rfl := Option.some.inj hasked
    exact hconclude _
  | _ => cases hasked

/-- Of either kind of result this is what becomes of the record and what is answered. -/
theorem visit_conclude {α : Type} (h : l.record? r.2 = some p) {o : Operation}
    {ending : Pending → Except Error (α × Pending)} (result : Gathered → α)
    (hending : ending = fun p => p.finalize.map fun (g, p) => (result g, p))
    {answer : Option (Except Error α) → Answer} (conclusion : α → Conclusion)
    (herror : ∀ e, answer (some (.error e)) = .refused e)
    (hok : ∀ a, answer (some (.ok a)) = .concluded (conclusion a))
    (hresult : o.resultOf? p.gathered = some (conclusion (result p.gathered))) :
    let s := (l.conclude r.2 ending).map answer
    (p.finalized = false ∧ (∃ c, s.answer = .concluded c ∧ o.resultOf? p.gathered = some c) ∧
      s.ledger.record? r.2 = some { p with finalized := true }) ∨
    (p.finalized = true ∧ s.answer = .refused (.alreadyFinalized p.id) ∧
      s.ledger.record? r.2 = some p) := by
  rw [hending]
  unfold conclude Pending.finalize
  rw [h]
  dsimp only
  cases p.finalized with
  | true => exact .inr ⟨rfl, herror _, h⟩
  | false => exact .inl ⟨rfl, ⟨_, hok _, hresult⟩, record?_keep_self h _⟩

/-- The result is given and the record finalized, or it is said that it was given before. -/
theorem visit_asked (h : l.record? r.2 = some p) {o : Operation} (hasked : o.asked? = some r.2) :
    let s := l.perform o
    (p.finalized = false ∧ (∃ c, s.answer = .concluded c ∧ o.resultOf? p.gathered = some c) ∧
      s.ledger.record? r.2 = some { p with finalized := true }) ∨
    (p.finalized = true ∧ s.answer = .refused (.alreadyFinalized p.id) ∧
      s.ledger.record? r.2 = some p) := by
  cases o with
  | complete handle pointer metadataSize =>
    obtain rfl : handle = r.2 := Option.some.inj hasked
    exact visit_conclude h (fun g => ({ g with pointer, metadataSize } : Completed)) rfl
      .completed (fun _ => rfl) (fun _ => rfl) rfl
  | fail handle failureTime message =>
    obtain rfl : handle = r.2 := Option.some.inj hasked
    exact visit_conclude h (fun g => ({ g with failureTime, message } : Failed)) rfl
      .failed (fun _ => rfl) (fun _ => rfl) rfl
  | _ => cases hasked

/-- Of all other operations some put records at the end, and none does anything else to them. -/
theorem record?_of_beside {o : Operation} (h : l.record? r.2 = some p)
    (hreport : ∀ handle vertex report, o ≠ .acknowledge handle vertex report)
    (hroute : ∀ id vertex report, o ≠ .route id vertex report) (hasked : o.asked? = none) :
    (l.perform o).ledger.record? r.2 = some p := by
  have hgrow (hmore : ∃ more, (l.perform o).ledger.records = l.records ++ more) :
      (l.perform o).ledger.record? r.2 = some p := by
    obtain ⟨more, hmore⟩ := hmore
    rw [record?, hmore, List.getElem?_append_left (List.getElem?_eq_some_iff.mp h).1]
    exact h
  have hsame (hsame : (l.perform o).ledger.records = l.records) :
      (l.perform o).ledger.record? r.2 = some p := by
    rw [record?, hsame]
    exact h
  cases o with
  | acknowledge handle vertex report => exact absurd rfl (hreport handle vertex report)
  | route id vertex report => exact absurd rfl (hroute id vertex report)
  | complete handle pointer metadataSize => exact absurd hasked (Option.some_ne_none _)
  | fail handle failureTime message => exact absurd hasked (Option.some_ne_none _)
  | register id trigger properties groups =>
    refine hgrow ?_
    show ∃ more, (l.register id trigger properties groups).ledger.records = _
    unfold register
    split
    · exact ⟨[], (List.append_nil _).symm⟩
    · exact ⟨_, rfl⟩
  | reportCompleted c =>
    refine hsame ?_
    show (l.reportCompleted c).ledger.records = _
    unfold reportCompleted
    split <;> rfl
  | reportFailed f =>
    refine hsame ?_
    show (l.reportFailed f).ledger.records = _
    unfold reportFailed
    split <;> rfl
  | reportUntriggered => exact hsame rfl
  | beginInitialization attempts start => exact hsame rfl
  | reportMetrics attempt metrics =>
    refine hsame ?_
    show (l.reportMetrics attempt metrics).ledger.records = _
    unfold reportMetrics
    split
    · rfl
    · dsimp only
      rw [settle_fst]
      rfl
  | reportRestored id properties path stateSize =>
    refine hsame ?_
    show (l.reportRestored id properties path stateSize).ledger.records = _
    unfold reportRestored
    split
    · rfl
    · dsimp only
      rw [settle_fst]
      rfl
  | snapshot =>
    refine hsame ?_
    show l.snapshot.2.records = _
    unfold Ledger.snapshot
    split <;> rfl

/-- **What an operation does to the record of a checkpoint.** -/
theorem visit (hr : Known l r) (h : l.record? r.2 = some p) (o : Operation) :
    ∃ p', (l.perform o).ledger.record? r.2 = some p' ∧ Visit r p o (l.perform o).answer p' := by
  by_cases hasked : o.asked? = some r.2
  · rcases visit_asked h hasked with ⟨hopen, ⟨c, hanswer, hc⟩, hrecord⟩ | ⟨hdone, hanswer, hrecord⟩
    · exact ⟨_, hrecord, .gave hasked hopen hanswer hc⟩
    · exact ⟨_, hrecord, .declined hasked hdone hanswer⟩
  have hpassed (hrecord : (l.perform o).ledger.record? r.2 = some p)
      (hreport : o.report? r = none) :
      ∃ p', (l.perform o).ledger.record? r.2 = some p' ∧ Visit r p o (l.perform o).answer p' :=
    ⟨p, hrecord, .passed hasked (Operation.taken?_eq_none hreport _)⟩
  cases o with
  | acknowledge handle vertex report => exact visit_report h hasked rfl
  | route id vertex report =>
    show ∃ p', ((l.route id vertex report).map _).ledger.record? r.2 = some p' ∧
      Visit r p _ ((l.route id vertex report).map .taken).answer p'
    unfold route
    cases hopen : l.inProgress? id with
    | none => exact ⟨p, h, .passed hasked rfl⟩
    | some handle =>
      refine visit_report h hasked ?_
      have hbelong : id = r.1 ↔ handle = r.2 :=
        ⟨fun he => hr.handle handle (he ▸ hopen), fun he => hr.id id (he ▸ hopen)⟩
      exact if_congr hbelong rfl rfl
  | complete handle pointer metadataSize =>
    exact hpassed ((record?_asked_other rfl (fun he => hasked (congrArg some he))).trans h) rfl
  | fail handle failureTime message =>
    exact hpassed ((record?_asked_other rfl (fun he => hasked (congrArg some he))).trans h) rfl
  | _ => exact hpassed (record?_of_beside h nofun nofun rfl) rfl

/-! ## After the result was given -/

/-- A record whose result was given stays as it is. -/
theorem frozen {o : Operation} {a : Answer} {p' : Pending} (h : Visit r p o a p')
    (hdone : p.finalized = true) : p' = p := by
  cases h with
  | passed _ _ => rfl
  | @took vertex report _ _ hrefusal =>
    have hopen := ((p.refusal?_eq_none_iff vertex report).mp hrefusal).1
    exact absurd (hdone.symm.trans hopen) Bool.true_eq_false.mp
  | gave _ hopen _ _ => exact absurd (hdone.symm.trans hopen) Bool.true_eq_false.mp
  | declined _ _ _ => rfl

/-- **Whatever is done, a record whose result was given stays as it is.** -/
theorem frozen_run (hr : ∀ later, Known (l.after later) r) (h : l.record? r.2 = some p)
    (hdone : p.finalized = true) (later : List Operation) :
    (l.after later).record? r.2 = some p := by
  induction later using List.reverseRecOn with
  | nil => exact h
  | append_singleton later o ih =>
    obtain ⟨p', hrecord, hvisit⟩ := visit (hr later) ih o
    rw [after_concat, hrecord, frozen hvisit hdone]

/-- Then no report is taken, whichever way it comes. -/
theorem not_taken_of_finalized (hr : Known l r) (h : l.record? r.2 = some p)
    (hdone : p.finalized = true) (vertex : VertexId) (report : Report) :
    (l.perform (.acknowledge r.2 vertex report)).answer = .taken false ∧
      (l.perform (.acknowledge r.2 vertex report)).ledger = l ∧
      (l.perform (.route r.1 vertex report)).answer = .taken false ∧
      (l.perform (.route r.1 vertex report)).ledger = l := by
  have hrefusal : p.refusal? vertex report = some .finalized := by
    rw [Pending.refusal?, hdone]
    rfl
  have hdirect : l.acknowledge r.2 vertex report =
      ⟨false, l, refusalNotice p.id vertex report .finalized⟩ := by
    rw [acknowledge, h]
    dsimp only
    rw [Pending.acknowledge, hrefusal]
  have hrouted : (l.route r.1 vertex report).answer = false ∧
      (l.route r.1 vertex report).ledger = l := by
    unfold route
    cases hopen : l.inProgress? r.1 with
    | none => exact ⟨rfl, rfl⟩
    | some handle =>
      dsimp only
      rw [hr.handle handle hopen, hdirect]
      exact ⟨rfl, rfl⟩
  refine ⟨?_, ?_, congrArg Answer.taken hrouted.1, hrouted.2⟩
  · exact congrArg (fun s => Answer.taken s.answer) hdirect
  · exact congrArg Step.ledger hdirect

end Ledger

end CheckpointLedger
