import CheckpointLedger.Ledger.Operation

/-!
# The journal of a run

Most of what is to be said about a ledger compares it with **what was accepted**
on the way to it: which checkpoints were registered, which ends were reported,
what a generation of attempts was told. The journal of a run is the list of
these postings. It is read off the operations and their answers alone, so it
knows nothing of how the ledger keeps its books.

Two things connect the journal with the ledger:

* `Turn` says what one operation can do, one case for each kind of posting and
  one for operations of which nothing is posted: the ledger it leaves, and what it
  tells the outside. `turn` is the only place where the operations themselves are
  taken apart.
* `journal_induction` carries whatever every turn preserves along a whole run.

So an invariant is a relation between a journal and a ledger, and costs one case
analysis on `Turn`.
-/

namespace CheckpointLedger

/-- Something a ledger accepted. -/
inductive Posting where
  /-- A checkpoint is in progress, and this is the record that was handed out. -/
  | registered (record : Pending) (handle : Handle)
  /-- A checkpoint in progress ended. -/
  | concluded (c : Conclusion)
  /-- A checkpoint failed before it was in progress. -/
  | untriggered
  /-- A generation of attempts began. -/
  | began (attempts : List AttemptId) (start : Nat)
  /-- An attempt of the generation reported. -/
  | measured (attempt : AttemptId) (metrics : AttemptMetrics)
  /-- The checkpoint was named that the generation starts from. -/
  | restored (id : Nat) (properties : Properties) (path : Option String) (stateSize : Nat)

/-- What is posted of an operation that was answered. -/
def Operation.posting? : Operation → Answer → Option Posting
  | .register id trigger properties groups, .registered handle =>
    some (.registered (.new id trigger properties groups) handle)
  | .reportCompleted c, .done => some (.concluded (.completed c))
  | .reportFailed f, .done => some (.concluded (.failed f))
  | .reportUntriggered, .done => some .untriggered
  | .beginInitialization attempts start, .done => some (.began attempts start)
  | .reportMetrics attempt metrics, .taken true => some (.measured attempt metrics)
  | .reportRestored id properties path stateSize, .done =>
    some (.restored id properties path stateSize)
  | _, _ => none

/-- The checkpoint that came into progress, by id, and the handle of its record. -/
def Posting.registration? : Posting → Option (Nat × Handle)
  | registered record handle => some (record.id, handle)
  | _ => none

/-- The end that was reported. -/
def Posting.conclusion? : Posting → Option Conclusion
  | concluded c => some c
  | _ => none

/-- Whether this is a checkpoint that failed before it was in progress. -/
def Posting.isUntriggered : Posting → Bool
  | untriggered => true
  | _ => false

/-- Whether this names the checkpoint that a generation starts from. -/
def Posting.isRestored : Posting → Bool
  | restored _ _ _ _ => true
  | _ => false

/-- The completed checkpoint, if it is one. -/
def Conclusion.completed? : Conclusion → Option Completed
  | completed c => some c
  | failed _ => none

/-- The failed checkpoint, if it is one. -/
def Conclusion.failed? : Conclusion → Option Failed
  | completed _ => none
  | failed f => some f

/-- What was accepted, in order. -/
abbrev Journal := List Posting

namespace Journal

/-- The checkpoints that were registered, in order. -/
def registrations (j : Journal) : List (Nat × Handle) := j.filterMap Posting.registration?

/-- The ends that were reported, in order. -/
def conclusions (j : Journal) : List Conclusion := j.filterMap Posting.conclusion?

/-- The ids of the checkpoints whose end was reported. -/
def concludedIds (j : Journal) : List Nat := j.conclusions.map (·.id)

/-- The completed checkpoints that were reported, in order. -/
def completions (j : Journal) : List Completed := j.conclusions.filterMap Conclusion.completed?

/-- The failed checkpoints that were reported, in order. -/
def failures (j : Journal) : List Failed := j.conclusions.filterMap Conclusion.failed?

/-- How many checkpoints failed before they were in progress. -/
def untriggered (j : Journal) : Nat := j.countP Posting.isUntriggered

/-- How often the checkpoint was named that a generation starts from. -/
def restores (j : Journal) : Nat := j.countP Posting.isRestored

/-- Picking from a list that grows at its end. -/
theorem filterMap_concat {α β : Type} (pick : α → Option β) (xs : List α) (x : α) :
    (xs ++ [x]).filterMap pick = xs.filterMap pick ++ (pick x).toList := by
  rw [List.filterMap_append]
  cases h : pick x with
  | none => rw [List.filterMap_cons_none h]; rfl
  | some b => rw [List.filterMap_cons_some h]; rfl

theorem registrations_append (j k : Journal) :
    registrations (j ++ k) = j.registrations ++ k.registrations := List.filterMap_append

theorem conclusions_append (j k : Journal) :
    conclusions (j ++ k) = j.conclusions ++ k.conclusions := List.filterMap_append

theorem concludedIds_append (j k : Journal) :
    concludedIds (j ++ k) = j.concludedIds ++ k.concludedIds := by
  rw [concludedIds, conclusions_append, List.map_append]
  rfl

theorem completions_append (j k : Journal) :
    completions (j ++ k) = j.completions ++ k.completions := by
  rw [completions, conclusions_append, List.filterMap_append]
  rfl

theorem failures_append (j k : Journal) : failures (j ++ k) = j.failures ++ k.failures := by
  rw [failures, conclusions_append, List.filterMap_append]
  rfl

/-! A registration is no conclusion, and a conclusion no registration. -/

theorem registrations_registered (j : Journal) (record : Pending) (handle : Handle) :
    registrations (j ++ [.registered record handle]) = j.registrations ++ [(record.id, handle)] :=
  registrations_append j _

theorem conclusions_registered (j : Journal) (record : Pending) (handle : Handle) :
    conclusions (j ++ [.registered record handle]) = j.conclusions := by
  rw [conclusions_append]
  exact List.append_nil _

theorem concludedIds_registered (j : Journal) (record : Pending) (handle : Handle) :
    concludedIds (j ++ [.registered record handle]) = j.concludedIds := by
  rw [concludedIds, conclusions_registered]
  rfl

theorem registrations_concluded (j : Journal) (c : Conclusion) :
    registrations (j ++ [.concluded c]) = j.registrations := by
  rw [registrations_append]
  exact List.append_nil _

theorem conclusions_concluded (j : Journal) (c : Conclusion) :
    conclusions (j ++ [.concluded c]) = j.conclusions ++ [c] := conclusions_append j _

theorem concludedIds_concluded (j : Journal) (c : Conclusion) :
    concludedIds (j ++ [.concluded c]) = j.concludedIds ++ [c.id] := concludedIds_append j _

theorem untriggered_append (j k : Journal) :
    untriggered (j ++ k) = j.untriggered + k.untriggered := List.countP_append

theorem restores_append (j k : Journal) : restores (j ++ k) = j.restores + k.restores :=
  List.countP_append

/-- Every conclusion is of one of the two kinds. -/
theorem length_conclusions (j : Journal) :
    j.conclusions.length = j.completions.length + j.failures.length := by
  unfold completions failures
  induction j.conclusions with
  | nil => rfl
  | cons c rest ih =>
    cases c with
    | completed c =>
      rw [List.filterMap_cons_some (by rfl), List.filterMap_cons_none (by rfl)]
      simp only [List.length_cons, ih]
      omega
    | failed f =>
      rw [List.filterMap_cons_none (by rfl), List.filterMap_cons_some (by rfl)]
      simp only [List.length_cons, ih]
      omega

end Journal

/-- Whether this is only written to the log. -/
def Effect.isNotice : Effect → Bool
  | notice _ => true
  | _ => false

/-- What is told to the outside, the log aside. -/
def Step.outward {α : Type} (s : Step α) : List Effect := s.effects.filter (fun e => !e.isNotice)

namespace Ledger

/-- What is posted when an operation is done now. -/
def posting? (l : Ledger) (o : Operation) : Option Posting := o.posting? (l.perform o).answer

/-- What is posted while a list of operations is done. -/
def journal (l : Ledger) : List Operation → Journal
  | [] => []
  | o :: rest => (l.posting? o).toList ++ (l.perform o).ledger.journal rest

theorem after_append (l : Ledger) (first second : List Operation) :
    l.after (first ++ second) = (l.after first).after second := by
  rw [after, after, after, List.foldl_append]

theorem after_concat (l : Ledger) (ops : List Operation) (o : Operation) :
    l.after (ops ++ [o]) = ((l.after ops).perform o).ledger := after_append l ops [o]

theorem journal_append (l : Ledger) (first second : List Operation) :
    l.journal (first ++ second) = l.journal first ++ (l.after first).journal second := by
  induction first generalizing l with
  | nil => rfl
  | cons o rest ih =>
    show _ ++ (l.perform o).ledger.journal (rest ++ second) = _
    rw [ih, ← List.append_assoc]
    rfl

theorem journal_concat (l : Ledger) (ops : List Operation) (o : Operation) :
    l.journal (ops ++ [o]) = l.journal ops ++ ((l.after ops).posting? o).toList := by
  rw [journal_append]
  show _ ++ (_ ++ []) = _
  rw [List.append_nil]

theorem run_append (l : Ledger) (first second : List Operation) :
    l.run (first ++ second) = l.run first ++ (l.after first).run second := by
  induction first generalizing l with
  | nil => rfl
  | cons o rest ih =>
    exact congrArg (l.perform o :: ·) (ih (l.perform o).ledger)

theorem run_concat (l : Ledger) (ops : List Operation) (o : Operation) :
    l.run (ops ++ [o]) = l.run ops ++ [(l.after ops).perform o] := run_append l ops [o]

/-! ## What one operation can do -/

/-- The books after the end of a checkpoint was reported. -/
def book (l : Ledger) : Conclusion → Ledger
  | .completed c => l.bookCompleted c
  | .failed f => l.bookFailed f

/-- What is told of the end of a checkpoint. -/
def announce (c : Conclusion) (seen : List Value) : List Effect :=
  match c with
  | .completed c => [.span (spanOf c) seen, .event (eventOf c) seen, .completed seen]
  | .failed _ => [.failed seen]

/-- What is told when a generation is settled. -/
def announceSettled (after : Ledger × Option Initialization) : List Effect :=
  match after.2 with
  | none => []
  | some i => [.span (i.span scope) after.1.seen]

/--
What an operation does to a ledger and tells the outside, by what is posted of it.
An operation of which nothing is posted leaves the books alone: all it may change
is a record, and which snapshot is the current one.
-/
inductive Turn (l : Ledger) : Option Posting → List Effect → Ledger → Prop where
  | quiet {records : List Pending} {current : Option Snapshot} {editions : Nat}
      (h : records.length = l.records.length) :
      Turn l none [] { l with records, current, editions }
  | registered {record : Pending} (h : ∀ last, l.lastId = some last → last < record.id) :
      Turn l (some (.registered record ⟨l.records.length⟩)) [] (l.enter record)
  | concluded {c : Conclusion} {handle : Handle} (h : l.inProgress? c.id = some handle) :
      Turn l (some (.concluded c)) (announce c (l.book c).seen) (l.book c)
  | untriggered {l' : Ledger} (h : l' = { l with counts := l.counts.addUntriggered }.touch) :
      Turn l (some .untriggered) [.failed l'.seen] l'
  | began {attempts : List AttemptId} {start : Nat} :
      Turn l (some (.began attempts start)) [] (l.beginInitialization attempts start).ledger
  | measured {attempt : AttemptId} {metrics : AttemptMetrics} {g : Generation}
      (hg : l.generation = some g) (h : g.awaits attempt = true) :
      Turn l (some (.measured attempt metrics))
        (announceSettled (l.touch.settle (g.record attempt metrics)))
        (l.touch.settle (g.record attempt metrics)).1
  | restored {id : Nat} {properties : Properties} {path : Option String} {stateSize : Nat}
      {g : Generation} {l' : Ledger} {r : Restored} (hg : l.generation = some g)
      (hr : r = ⟨id, properties, g.start, path, stateSize⟩)
      (hl : l' = { l with counts := l.counts.addRestored, latestRestored := some r }.touch) :
      Turn l (some (.restored id properties path stateSize))
        (announceSettled (l'.settle (g.attach r))) (l'.settle (g.attach r)).1

theorem Turn.same (l : Ledger) : Turn l none [] l := .quiet rfl

theorem outward_settled (after : Ledger × Option Initialization) :
    (settled after).filter (fun e => !e.isNotice) = announceSettled after := by
  obtain ⟨l, i⟩ := after
  cases i <;> rfl

theorem outward_append_notices {notices rest : List Effect}
    (h : ∀ e ∈ notices, e.isNotice = true) :
    (notices ++ rest).filter (fun e => !e.isNotice) = rest.filter (fun e => !e.isNotice) := by
  have hnone : notices.filter (fun e => !e.isNotice) = [] := by
    rw [List.filter_eq_nil_iff]
    intro e he
    simp [h e he]
  rw [List.filter_append, hnone, List.nil_append]

theorem isNotice_balanceNotice (l : Ledger) : ∀ e ∈ l.balanceNotice, e.isNotice = true := by
  intro e he
  unfold balanceNotice at he
  split at he
  · rw [List.mem_singleton.mp he]
    rfl
  · exact absurd he List.not_mem_nil

theorem isNotice_discardNotice (l : Ledger) : ∀ e ∈ l.discardNotice, e.isNotice = true := by
  intro e he
  unfold discardNotice at he
  split at he
  · rw [List.mem_singleton.mp he]
    rfl
  · exact absurd he List.not_mem_nil

theorem turn_register (l : Ledger) (id trigger : Nat) (properties : Properties)
    (groups : OrderedMap VertexId Nat) :
    let step := l.register id trigger properties groups
    Turn l ((Operation.register id trigger properties groups).posting?
      (.ofExcept .registered step.answer)) step.outward step.ledger := by
  unfold register
  split
  · exact .same l
  · rename_i hfree
    refine Turn.registered (fun last hlast => ?_)
    -- the ids registered before passed the test, so this one is above them
    have := Option.filter_eq_none_iff.mp hfree last hlast
    show last < id
    simpa using this

theorem turn_acknowledge (l : Ledger) (handle : Handle) (vertex : VertexId) (report : Report) :
    Turn l none (l.acknowledge handle vertex report).outward
      (l.acknowledge handle vertex report).ledger := by
  unfold acknowledge
  split
  · exact .same l
  · split
    · exact .quiet List.length_set
    · rename_i refusal _
      cases refusal <;> exact .same l

theorem turn_route (l : Ledger) (id : Nat) (vertex : VertexId) (report : Report) :
    Turn l none (l.route id vertex report).outward (l.route id vertex report).ledger := by
  unfold route
  split
  · exact .same l
  · exact turn_acknowledge l _ vertex report

theorem turn_conclude {α : Type} (l : Ledger) (handle : Handle)
    (ending : Pending → Except Error (α × Pending)) :
    Turn l none (l.conclude handle ending).outward (l.conclude handle ending).ledger := by
  unfold conclude
  split
  · exact .same l
  · split
    · exact .quiet List.length_set
    · exact .same l

theorem turn_reportCompleted (l : Ledger) (c : Completed) :
    let step := l.reportCompleted c
    Turn l ((Operation.reportCompleted c).posting? (.ofExcept (fun _ => .done) step.answer))
      step.outward step.ledger := by
  unfold reportCompleted
  split
  · exact .same l
  · rename_i handle h
    show Turn l _ ((l.balanceNotice ++ _).filter _) _
    rw [outward_append_notices l.isNotice_balanceNotice]
    exact Turn.concluded (c := .completed c) h

theorem turn_reportFailed (l : Ledger) (f : Failed) :
    let step := l.reportFailed f
    Turn l ((Operation.reportFailed f).posting? (.ofExcept (fun _ => .done) step.answer))
      step.outward step.ledger := by
  unfold reportFailed
  split
  · exact .same l
  · rename_i handle h
    show Turn l _ ((l.balanceNotice ++ _).filter _) _
    rw [outward_append_notices l.isNotice_balanceNotice]
    exact Turn.concluded (c := .failed f) h

theorem turn_beginInitialization (l : Ledger) (attempts : List AttemptId) (start : Nat) :
    Turn l (some (.began attempts start)) (l.beginInitialization attempts start).outward
      (l.beginInitialization attempts start).ledger := by
  show Turn l _ ((l.discardNotice ++ _).filter _) _
  rw [outward_append_notices l.isNotice_discardNotice]
  exact .began

theorem turn_reportMetrics (l : Ledger) (attempt : AttemptId) (metrics : AttemptMetrics) :
    let step := l.reportMetrics attempt metrics
    Turn l ((Operation.reportMetrics attempt metrics).posting? (.taken step.answer))
      step.outward step.ledger := by
  unfold reportMetrics
  split
  · exact .same l
  · rename_i g h
    obtain ⟨hg, hawaits⟩ := Option.filter_eq_some_iff.mp h
    show Turn l _ ((settled _).filter _) _
    rw [outward_settled]
    exact .measured hg hawaits

theorem turn_reportRestored (l : Ledger) (id : Nat) (properties : Properties)
    (path : Option String) (stateSize : Nat) :
    let step := l.reportRestored id properties path stateSize
    Turn l ((Operation.reportRestored id properties path stateSize).posting?
      (.ofExcept (fun _ => .done) step.answer)) step.outward step.ledger := by
  unfold reportRestored
  split
  · exact .same l
  · rename_i g hg
    show Turn l _ ((settled _).filter _) _
    rw [outward_settled]
    exact .restored hg rfl rfl

theorem turn_snapshot (l : Ledger) : Turn l none [] l.snapshot.2 := by
  unfold snapshot
  split
  · exact .same l
  · exact .quiet rfl

/-- **Every operation is a turn.** -/
theorem turn (l : Ledger) (o : Operation) :
    Turn l (l.posting? o) (l.perform o).outward (l.perform o).ledger := by
  cases o with
  | register id trigger properties groups => exact turn_register l id trigger properties groups
  | acknowledge handle vertex report => exact turn_acknowledge l handle vertex report
  | route id vertex report => exact turn_route l id vertex report
  | complete handle pointer metadataSize => exact turn_conclude l handle _
  | fail handle failureTime message => exact turn_conclude l handle _
  | reportCompleted c => exact turn_reportCompleted l c
  | reportFailed f => exact turn_reportFailed l f
  | reportUntriggered => exact .untriggered rfl
  | beginInitialization attempts start => exact turn_beginInitialization l attempts start
  | reportMetrics attempt metrics => exact turn_reportMetrics l attempt metrics
  | reportRestored id properties path stateSize =>
    exact turn_reportRestored l id properties path stateSize
  | snapshot => exact turn_snapshot l

/-- **What every turn preserves holds after every run.** -/
theorem journal_induction {motive : Journal → Ledger → Prop} (l : Ledger)
    (start : motive [] l)
    (step : ∀ past l p effects l', Turn l p effects l' → motive past l →
      motive (past ++ p.toList) l')
    (ops : List Operation) : motive (l.journal ops) (l.after ops) := by
  -- generalised over the journal so far, since the run goes on from any turn
  have continued : ∀ (ops : List Operation) (past : Journal) (l : Ledger), motive past l →
      motive (past ++ l.journal ops) (l.after ops) := by
    intro ops
    induction ops with
    | nil =>
      intro past l h
      show motive (past ++ []) l
      rwa [List.append_nil]
    | cons o rest ih =>
      intro past l h
      show motive (past ++ (_ ++ _)) _
      rw [← List.append_assoc]
      exact ih _ _ (step past l _ _ _ (turn l o) h)
  exact continued ops [] l start

end Ledger

/-! ## The least of checkpoints -/

/-- Registers a checkpoint that nobody is to acknowledge. -/
def Operation.registerBare (id : Nat) : Operation := .register id 0 (.checkpoint .never) .empty

/-- The end of such a checkpoint. -/
def Completed.bare (id : Nat) : Completed where
  id := id
  trigger := 0
  properties := .checkpoint .never
  total := 0
  acknowledged := .ofGroups []
  pointer := none
  metadataSize := 0

end CheckpointLedger
