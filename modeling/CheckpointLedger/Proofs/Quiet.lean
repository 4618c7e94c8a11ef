import CheckpointLedger.Proofs.InProgress
import Mathlib.Data.List.Induction

/-!
# Operations of which nothing is posted

Of most operations nothing is posted: they are declined, or change a record, or make
a snapshot. `Turn` is content to say that the books stay as they are. Here is the
rest.

For each operation that can be **declined**, one lemma says what the objection is, in
terms of the ledger it meets, and that it then leaves this very ledger, down to the
records and the current snapshot (`DeclinedIff`). Of the operations that are not
declined and still not posted, `Quiet` says which record changes and into what, and
that only asking for a snapshot makes one.

So what every posting preserves, and every quiet operation, holds after every run
(`quiet_induction`); this is for invariants that look at records or at the current
snapshot, which are beyond `journal_induction`.
-/

namespace CheckpointLedger

/-- Whether an operation was in error, or what it reports was not taken. -/
def Answer.isDeclined : Answer → Bool
  | refused _ => true
  | taken false => true
  | _ => false

namespace Pending

/-- How a record can change: a slot is filled, or the result is given. -/
inductive Next (p : Pending) : Pending → Prop where
  | filled {vertex : VertexId} {report : Report} (h : p.refusal? vertex report = none) :
      Next p (p.fill vertex report)
  | finalized (h : p.finalized = false) : Next p { p with finalized := true }

/-- It stays the record of the same checkpoint. -/
theorem Next.id_eq {p q : Pending} (h : Next p q) : q.id = p.id := by
  cases h <;> rfl

/-- Whatever is asked for is given the first time, and not again. -/
def GivesOnce {α : Type} (ending : Pending → Except Error (α × Pending)) : Prop :=
  ∀ p : Pending, (p.finalized = true ∧ ∃ e, ending p = .error e) ∨
    (p.finalized = false ∧ ∃ result, ending p = .ok (result, { p with finalized := true }))

theorem givesOnce_finalize : GivesOnce finalize := by
  intro p
  unfold finalize
  by_cases hdone : p.finalized = true
  · rw [if_pos hdone]
    exact .inl ⟨hdone, _, rfl⟩
  · rw [if_neg hdone]
    exact .inr ⟨Bool.eq_false_iff.mpr hdone, _, rfl⟩

theorem givesOnce_complete (pointer : Option String) (metadataSize : Nat) :
    GivesOnce (·.complete pointer metadataSize) := by
  intro p
  show (_ ∧ ∃ e, p.finalize.map _ = _) ∨ (_ ∧ ∃ result, p.finalize.map _ = _)
  rcases givesOnce_finalize p with ⟨hdone, e, h⟩ | ⟨hopen, g, h⟩
  · exact .inl ⟨hdone, e, by rw [h]; rfl⟩
  · exact .inr ⟨hopen, _, by rw [h]; rfl⟩

theorem givesOnce_fail (failureTime : Nat) (message : Option String) :
    GivesOnce (·.fail failureTime message) := by
  intro p
  show (_ ∧ ∃ e, p.finalize.map _ = _) ∨ (_ ∧ ∃ result, p.finalize.map _ = _)
  rcases givesOnce_finalize p with ⟨hdone, e, h⟩ | ⟨hopen, g, h⟩
  · exact .inl ⟨hdone, e, by rw [h]; rfl⟩
  · exact .inr ⟨hopen, _, by rw [h]; rfl⟩

end Pending

namespace Ledger

/-! ## Operations that are declined -/

/-- An operation is declined exactly if there is this objection, and then changes nothing. -/
structure DeclinedIff (l : Ledger) (s : Step Answer) (objection : Prop) : Prop where
  /-- Without the objection it is not declined. -/
  iff : s.answer.isDeclined = true ↔ objection
  /-- The ledger is the one that was found. -/
  same : s.answer.isDeclined = true → s.ledger = l

namespace DeclinedIff

variable {l : Ledger} {s : Step Answer} {objection : Prop}

theorem yes (hobjection : objection) (h : s.answer.isDeclined = true) (hsame : s.ledger = l) :
    DeclinedIff l s objection := ⟨⟨fun _ => hobjection, fun _ => h⟩, fun _ => hsame⟩

theorem no (hobjection : ¬ objection) (h : s.answer.isDeclined = false) :
    DeclinedIff l s objection :=
  ⟨⟨fun hd => absurd (h.symm.trans hd) Bool.false_ne_true, fun ho => absurd ho hobjection⟩,
    fun hd => absurd (h.symm.trans hd) Bool.false_ne_true⟩

end DeclinedIff

theorem declined_register (l : Ledger) (id trigger : Nat) (properties : Properties)
    (groups : OrderedMap VertexId Nat) :
    DeclinedIff l (l.perform (.register id trigger properties groups))
      (∃ last, l.lastId = some last ∧ id ≤ last) := by
  show DeclinedIff l ((l.register id trigger properties groups).map _) _
  unfold register
  cases hlast : l.lastId.filter (id ≤ ·) with
  | some last =>
    obtain ⟨hlast, hle⟩ := Option.filter_eq_some_iff.mp hlast
    exact .yes ⟨last, hlast, of_decide_eq_true hle⟩ rfl rfl
  | none =>
    refine .no ?_ rfl
    rintro ⟨last, hsome, hle⟩
    exact Option.filter_eq_none_iff.mp hlast last hsome (decide_eq_true hle)

theorem declined_acknowledge (l : Ledger) (handle : Handle) (vertex : VertexId)
    (report : Report) :
    DeclinedIff l (l.perform (.acknowledge handle vertex report))
      (∀ record, l.record? handle = some record → record.refusal? vertex report ≠ none) := by
  show DeclinedIff l ((l.acknowledge handle vertex report).map _) _
  unfold acknowledge Pending.acknowledge
  cases l.record? handle with
  | none => exact .yes (by simp) rfl rfl
  | some record =>
    dsimp only
    cases hrefusal : record.refusal? vertex report with
    | none => exact .no (by simp [hrefusal]) rfl
    | some refusal => exact .yes (by simp [hrefusal]) rfl rfl

theorem declined_route (l : Ledger) (id : Nat) (vertex : VertexId) (report : Report) :
    DeclinedIff l (l.perform (.route id vertex report))
      (∀ handle, l.inProgress? id = some handle →
        ∀ record, l.record? handle = some record → record.refusal? vertex report ≠ none) := by
  show DeclinedIff l ((l.route id vertex report).map _) _
  unfold route
  cases l.inProgress? id with
  | none => exact .yes (by simp) rfl rfl
  | some handle =>
    -- from here on it is as if the holder of the handle reported
    have h := declined_acknowledge l handle vertex report
    refine ⟨h.iff.trans ?_, h.same⟩
    exact ⟨fun ho other hother => Option.some.inj hother ▸ ho, fun ho => ho handle rfl⟩

/-- Asking for a result is declined the second time, whatever kind of result it is. -/
theorem declined_conclude {α : Type} (l : Ledger) (handle : Handle)
    {ending : Pending → Except Error (α × Pending)} (hending : Pending.GivesOnce ending)
    {answer : Option (Except Error α) → Answer} (hnone : (answer none).isDeclined = false)
    (herror : ∀ e, (answer (some (.error e))).isDeclined = true)
    (hok : ∀ a, (answer (some (.ok a))).isDeclined = false) :
    DeclinedIff l ((l.conclude handle ending).map answer)
      (∃ record, l.record? handle = some record ∧ record.finalized = true) := by
  unfold conclude
  cases l.record? handle with
  | none => exact .no (by simp) hnone
  | some record =>
    dsimp only
    rcases hending record with ⟨hdone, e, h⟩ | ⟨hopen, result, h⟩
    · rw [h]
      exact .yes ⟨record, rfl, hdone⟩ (herror e) rfl
    · rw [h]
      exact .no (by simp [hopen]) (hok result)

theorem declined_complete (l : Ledger) (handle : Handle) (pointer : Option String)
    (metadataSize : Nat) :
    DeclinedIff l (l.perform (.complete handle pointer metadataSize))
      (∃ record, l.record? handle = some record ∧ record.finalized = true) := by
  unfold perform complete
  exact declined_conclude l handle (Pending.givesOnce_complete pointer metadataSize) rfl
    (fun _ => rfl) (fun _ => rfl)

theorem declined_fail (l : Ledger) (handle : Handle) (failureTime : Nat)
    (message : Option String) :
    DeclinedIff l (l.perform (.fail handle failureTime message))
      (∃ record, l.record? handle = some record ∧ record.finalized = true) := by
  unfold perform fail
  exact declined_conclude l handle (Pending.givesOnce_fail failureTime message) rfl
    (fun _ => rfl) (fun _ => rfl)

theorem declined_reportCompleted (l : Ledger) (c : Completed) :
    DeclinedIff l (l.perform (.reportCompleted c)) (l.inProgress? c.id = none) := by
  show DeclinedIff l ((l.reportCompleted c).map _) _
  unfold reportCompleted
  cases l.inProgress? c.id with
  | none => exact .yes rfl rfl rfl
  | some handle => exact .no (by simp) rfl

theorem declined_reportFailed (l : Ledger) (f : Failed) :
    DeclinedIff l (l.perform (.reportFailed f)) (l.inProgress? f.id = none) := by
  show DeclinedIff l ((l.reportFailed f).map _) _
  unfold reportFailed
  cases l.inProgress? f.id with
  | none => exact .yes rfl rfl rfl
  | some handle => exact .no (by simp) rfl

theorem declined_reportMetrics (l : Ledger) (attempt : AttemptId) (metrics : AttemptMetrics) :
    DeclinedIff l (l.perform (.reportMetrics attempt metrics))
      (∀ g, l.generation = some g → g.awaits attempt = false) := by
  show DeclinedIff l ((l.reportMetrics attempt metrics).map _) _
  unfold reportMetrics
  cases hg : l.generation.filter (·.awaits attempt) with
  | none =>
    refine .yes (fun g hsome => ?_) rfl rfl
    exact Bool.eq_false_iff.mpr (Option.filter_eq_none_iff.mp hg g hsome)
  | some g =>
    obtain ⟨hsome, hawaits⟩ := Option.filter_eq_some_iff.mp hg
    refine .no (fun h => ?_) rfl
    exact Bool.false_ne_true ((h g hsome).symm.trans hawaits)

theorem declined_reportRestored (l : Ledger) (id : Nat) (properties : Properties)
    (path : Option String) (stateSize : Nat) :
    DeclinedIff l (l.perform (.reportRestored id properties path stateSize))
      (l.generation = none) := by
  show DeclinedIff l ((l.reportRestored id properties path stateSize).map _) _
  unfold reportRestored
  cases l.generation with
  | none => exact .yes rfl rfl rfl
  | some g => exact .no (by simp) rfl

/-- **What is declined changes nothing.** -/
theorem ledger_of_declined {l : Ledger} {o : Operation}
    (h : (l.perform o).answer.isDeclined = true) : (l.perform o).ledger = l := by
  cases o with
  | register id trigger properties groups =>
    exact (declined_register l id trigger properties groups).same h
  | acknowledge handle vertex report => exact (declined_acknowledge l handle vertex report).same h
  | route id vertex report => exact (declined_route l id vertex report).same h
  | complete handle pointer metadataSize =>
    exact (declined_complete l handle pointer metadataSize).same h
  | fail handle failureTime message =>
    exact (declined_fail l handle failureTime message).same h
  | reportCompleted c => exact (declined_reportCompleted l c).same h
  | reportFailed f => exact (declined_reportFailed l f).same h
  | reportMetrics attempt metrics => exact (declined_reportMetrics l attempt metrics).same h
  | reportRestored id properties path stateSize =>
    exact (declined_reportRestored l id properties path stateSize).same h
  | reportUntriggered => exact absurd h Bool.false_ne_true
  | beginInitialization attempts start => exact absurd h Bool.false_ne_true
  | snapshot => exact absurd h Bool.false_ne_true

theorem posting?_of_declined {o : Operation} {a : Answer} (h : a.isDeclined = true) :
    o.posting? a = none := by
  cases a with
  | refused e => cases o <;> rfl
  | taken b =>
    cases b with
    | false => cases o <;> rfl
    | true => exact absurd h Bool.false_ne_true
  | _ => exact absurd h Bool.false_ne_true

/-- Without a posting nothing is told but to the log. -/
theorem outward_of_not_posted {l : Ledger} {o : Operation} (h : l.posting? o = none) :
    (l.perform o).outward = [] := by
  have hturn := turn l o
  rw [h] at hturn
  generalize (l.perform o).outward = effects at hturn ⊢
  generalize (l.perform o).ledger = l' at hturn
  cases hturn with
  | quiet _ => rfl

/-! ## Operations that are not declined -/

/-- What an operation does of which nothing is posted. -/
inductive Quiet (l : Ledger) : Operation → Ledger → Prop where
  | declined {o : Operation} : Quiet l o l
  | kept {o : Operation} {handle : Handle} {record record' : Pending}
      (h : l.record? handle = some record) (hnext : record.Next record') :
      Quiet l o (l.keep handle record')
  | shown : Quiet l .snapshot l.snapshot.2

theorem quiet_acknowledge (l : Ledger) (handle : Handle) (vertex : VertexId) (report : Report)
    (o : Operation) : Quiet l o (l.acknowledge handle vertex report).ledger := by
  unfold acknowledge Pending.acknowledge
  cases hrecord : l.record? handle with
  | none => exact .declined
  | some record =>
    dsimp only
    cases hrefusal : record.refusal? vertex report with
    | none => exact .kept hrecord (.filled hrefusal)
    | some refusal => exact .declined

theorem quiet_route (l : Ledger) (id : Nat) (vertex : VertexId) (report : Report)
    (o : Operation) : Quiet l o (l.route id vertex report).ledger := by
  unfold route
  cases l.inProgress? id with
  | none => exact .declined
  | some handle => exact quiet_acknowledge l handle vertex report o

theorem quiet_conclude {α : Type} (l : Ledger) (handle : Handle)
    {ending : Pending → Except Error (α × Pending)} (hending : Pending.GivesOnce ending)
    (o : Operation) : Quiet l o (l.conclude handle ending).ledger := by
  unfold conclude
  cases hrecord : l.record? handle with
  | none => exact .declined
  | some record =>
    dsimp only
    rcases hending record with ⟨_, e, h⟩ | ⟨hopen, result, h⟩
    · rw [h]
      exact .declined
    · rw [h]
      exact .kept hrecord (.finalized hopen)

/-- What is posted when it is done, and was not posted, was declined. -/
theorem isDeclined_of_not_posted {α : Type} (o : Operation) {f : α → Answer}
    (hf : ∀ a, (o.posting? (f a)).isSome) {x : Except Error α}
    (h : o.posting? (.ofExcept f x) = none) : (Answer.ofExcept f x).isDeclined = true := by
  cases x with
  | ok a =>
    have := hf a
    rw [show o.posting? (f a) = none from h] at this
    exact absurd this Bool.false_ne_true
  | error e => rfl

/-- **Every operation of which nothing is posted is quiet.** -/
theorem quiet_of_not_posted {l : Ledger} {o : Operation} (h : l.posting? o = none) :
    Quiet l o (l.perform o).ledger := by
  have hdeclined (hd : (l.perform o).answer.isDeclined = true) :
      Quiet l o (l.perform o).ledger := by
    rw [ledger_of_declined hd]
    exact .declined
  cases o with
  | acknowledge handle vertex report => exact quiet_acknowledge l handle vertex report _
  | route id vertex report => exact quiet_route l id vertex report _
  | complete handle pointer metadataSize =>
    exact quiet_conclude l handle (Pending.givesOnce_complete pointer metadataSize) _
  | fail handle failureTime message =>
    exact quiet_conclude l handle (Pending.givesOnce_fail failureTime message) _
  | snapshot => exact .shown
  | reportUntriggered => exact absurd h (Option.some_ne_none _)
  | beginInitialization attempts start => exact absurd h (Option.some_ne_none _)
  | register id trigger properties groups =>
    exact hdeclined (isDeclined_of_not_posted (.register id trigger properties groups)
      (fun _ => rfl) h)
  | reportCompleted c =>
    exact hdeclined (isDeclined_of_not_posted (.reportCompleted c) (fun _ => rfl) h)
  | reportFailed f =>
    exact hdeclined (isDeclined_of_not_posted (.reportFailed f) (fun _ => rfl) h)
  | reportRestored id properties path stateSize =>
    exact hdeclined (isDeclined_of_not_posted (.reportRestored id properties path stateSize)
      (fun _ => rfl) h)
  | reportMetrics attempt metrics =>
    refine hdeclined ?_
    replace h : Operation.posting? (.reportMetrics attempt metrics)
      (.taken (l.reportMetrics attempt metrics).answer) = none := h
    show (Answer.taken (l.reportMetrics attempt metrics).answer).isDeclined = true
    cases hb : (l.reportMetrics attempt metrics).answer with
    | false => rfl
    | true =>
      rw [hb] at h
      exact absurd h (Option.some_ne_none _)

theorem turn_of_posted {l : Ledger} {o : Operation} {p : Posting} (h : l.posting? o = some p) :
    Turn l (some p) (l.perform o).outward (l.perform o).ledger := by
  rw [← h]
  exact turn l o

/-- **What postings and quiet operations preserve holds after every run.** -/
theorem quiet_induction {motive : Journal → Ledger → Prop} (l : Ledger) (start : motive [] l)
    (posted : ∀ j l p effects l', Turn l (some p) effects l' → motive j l →
      motive (j ++ [p]) l')
    (quiet : ∀ j l o l', Quiet l o l' → motive j l → motive j l')
    (ops : List Operation) : motive (l.journal ops) (l.after ops) := by
  induction ops using List.reverseRecOn with
  | nil => exact start
  | append_singleton ops o ih =>
    rw [journal_concat, after_concat]
    cases hp : (l.after ops).posting? o with
    | none =>
      rw [Option.toList_none, List.append_nil]
      exact quiet _ _ _ _ (quiet_of_not_posted hp) ih
    | some p => exact posted _ _ _ _ _ (turn_of_posted hp) ih

end Ledger

end CheckpointLedger
