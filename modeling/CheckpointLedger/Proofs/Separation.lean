import CheckpointLedger.Proofs.Announcements
import CheckpointLedger.Proofs.Balance
import CheckpointLedger.Proofs.Snapshots

/-!
# Checkpoints and restores do not interfere

A ledger follows checkpoints and restores at once. They share the counts, the current
snapshot and whoever is told of them, and in a run their operations come in any order. That
the one is not disturbed by the other is a statement about two runs: one of all operations,
and one from which those of the other were **erased**.

What one side sees of a ledger is the ledger without what belongs to the other
(`withoutRestores`, `withoutCheckpoints`). Then it is enough to look at one operation at a
time (`Side`):

* an operation that is kept does the same to what is seen as to the whole, answers the same
  and tells the same (`Side.keeps`);
* an operation that is erased leaves what is seen as it is (`Side.respects`), and tells
  nothing that the side has to do with (`Side.silent`).

From this follows, for either side, what erasing does to whole runs (`Side.erase`).
-/

namespace CheckpointLedger

/-! ## Whose business an operation is -/

namespace Operation

/-- Whether a restore is followed by this. -/
def isRestore : Operation → Bool
  | beginInitialization _ _ => true
  | reportMetrics _ _ => true
  | reportRestored _ _ _ _ => true
  | _ => false

/-- Whether a checkpoint is: by everything else, but not by looking at the ledger. -/
def isCheckpoint : Operation → Bool
  | snapshot => false
  | o => !o.isRestore

/-- Nothing follows both. -/
theorem isRestore_of_isCheckpoint {o : Operation} (h : o.isCheckpoint = true) :
    o.isRestore = false := by
  cases o with
  | snapshot => cases h
  | beginInitialization _ _ => cases h
  | reportMetrics _ _ => cases h
  | reportRestored _ _ _ _ => cases h
  | _ => rfl

end Operation

/-- Whether the outside is told of a checkpoint by this: a span, an event, or a call. -/
def Effect.isOfCheckpoint : Effect → Bool
  | notice _ => false
  | span s _ => s.name == "Checkpoint"
  | event _ _ => true
  | completed _ => true
  | failed _ => true

namespace Ledger

/-- The answers to some of the operations of a run. -/
def answersTo (l : Ledger) (asked : Operation → Bool) (ops : List Operation) : List Answer :=
  ((ops.zip (l.run ops)).filter (fun s => asked s.1)).map (·.2.answer)

theorem answersTo_cons (l : Ledger) (asked : Operation → Bool) (o : Operation)
    (rest : List Operation) :
    l.answersTo asked (o :: rest) =
      (if asked o then [(l.perform o).answer] else []) ++
        (l.perform o).ledger.answersTo asked rest := by
  show ((((o, l.perform o) :: rest.zip _).filter _).map _) = _
  rw [List.filter_cons]
  dsimp only
  cases asked o <;> rfl

/-- What is told in a run, of all that is told. -/
def toldOf {β : Type} (l : Ledger) (told : List Effect → List β) (ops : List Operation) : List β :=
  (l.run ops).flatMap (fun s => told s.effects)

theorem toldOf_cons {β : Type} (l : Ledger) (told : List Effect → List β) (o : Operation)
    (rest : List Operation) :
    l.toldOf told (o :: rest) =
      told (l.perform o).effects ++ (l.perform o).ledger.toldOf told rest := rfl

/-! ## Erasing -/

/-- Two steps that are the same to a side, which may have to do with their answers or not. -/
structure SameStep {β : Type} (view : Ledger → Ledger) (told : List Effect → List β)
    (asked : Bool) (s t : Step Answer) : Prop where
  /-- It sees the same of what they leave. -/
  ledger : view s.ledger = view t.ledger
  /-- They answer the same. -/
  answer : asked = true → s.answer = t.answer
  /-- They tell the same. -/
  told : told s.effects = told t.effects

/-- One of several things that a ledger follows, and what there is to see of it. -/
structure Side (β : Type) where
  /-- The operations that are not another side's business. -/
  kept : Operation → Bool
  /-- Of these the ones that are its own. -/
  asked : Operation → Bool
  /-- What is left of a ledger without the other sides. -/
  view : Ledger → Ledger
  /-- What it has to do with, of all that is told. -/
  told : List Effect → List β
  kept_of_asked : ∀ o, asked o = true → kept o = true
  /-- An operation that is kept does not depend on what is taken away. -/
  keeps : ∀ (l : Ledger) (o : Operation), kept o = true →
    SameStep view told (asked o) ((view l).perform o) (l.perform o)
  /-- An operation that is erased changes only what is taken away. -/
  respects : ∀ (l : Ledger) (o : Operation), kept o = false → view (l.perform o).ledger = view l
  /-- And it tells nothing of this side. -/
  silent : ∀ (l : Ledger) (o : Operation), kept o = false → told (l.perform o).effects = []

namespace Side

variable {β : Type} (side : Side β)

/-- An operation that is kept is the same step for ledgers in which the same is seen. -/
theorem sameStep {l l' : Ledger} (h : side.view l = side.view l') {o : Operation}
    (ho : side.kept o = true) :
    SameStep side.view side.told (side.asked o) (l.perform o) (l'.perform o) := by
  have hl := side.keeps l o ho
  have hl' := side.keeps l' o ho
  rw [← h] at hl'
  exact ⟨hl.ledger.symm.trans hl'.ledger, fun ha => (hl.answer ha).symm.trans (hl'.answer ha),
    hl.told.symm.trans hl'.told⟩

/-- **Erasing what is another side's business changes nothing for this one.** -/
theorem erase {l l' : Ledger} (h : side.view l = side.view l') (ops : List Operation) :
    side.view (l.after ops) = side.view (l'.after (ops.filter side.kept)) ∧
    l.answersTo side.asked ops = l'.answersTo side.asked (ops.filter side.kept) ∧
    l.toldOf side.told ops = l'.toldOf side.told (ops.filter side.kept) := by
  -- of the two ledgers it is known at every step that the same is seen of them
  induction ops generalizing l l' with
  | nil => exact ⟨h, rfl, rfl⟩
  | cons o rest ih =>
    rw [answersTo_cons, toldOf_cons]
    by_cases ho : side.kept o = true
    · have hstep := side.sameStep h ho
      obtain ⟨hview, hanswers, htold⟩ := ih hstep.ledger
      rw [List.filter_cons_of_pos ho, answersTo_cons, toldOf_cons, hanswers, htold, hstep.told]
      refine ⟨hview, ?_, rfl⟩
      by_cases ha : side.asked o = true
      · rw [if_pos ha, if_pos ha, hstep.answer ha]
      · rw [if_neg ha, if_neg ha]
    · -- the second run goes on without the operation, and what is seen of the first is the same
      have hother : side.kept o = false := Bool.eq_false_iff.mpr ho
      obtain ⟨hview, hanswers, htold⟩ := ih ((side.respects l o hother).trans h)
      rw [List.filter_cons_of_neg ho, if_neg (fun ha => ho (side.kept_of_asked o ha)),
        side.silent l o hother]
      exact ⟨hview, hanswers, htold⟩

end Side

end Ledger

/-! ## Without the restores -/

namespace Counts

/-- The counts of a job that was never restored. -/
def withoutRestores (c : Counts) : Counts := { c with restored := 0 }

theorem leaveInProgress?_withoutRestores (c : Counts) :
    c.withoutRestores.leaveInProgress? = c.leaveInProgress?.map withoutRestores := by
  unfold leaveInProgress?
  by_cases h : c.inProgress = 0
  · rw [if_pos h, if_pos (show c.withoutRestores.inProgress = 0 from h)]
    rfl
  · rw [if_neg h, if_neg (show c.withoutRestores.inProgress ≠ 0 from h)]
    rfl

theorem addCompleted_withoutRestores (c : Counts) :
    c.withoutRestores.addCompleted = c.addCompleted.withoutRestores := by
  unfold addCompleted
  rw [leaveInProgress?_withoutRestores]
  cases c.leaveInProgress? <;> rfl

theorem addFailed_withoutRestores (c : Counts) :
    c.withoutRestores.addFailed = c.addFailed.withoutRestores := by
  unfold addFailed
  rw [leaveInProgress?_withoutRestores]
  cases c.leaveInProgress? <;> rfl

end Counts

/-- The same ledger, if the job had never been restored and nobody had looked at it. -/
def Ledger.withoutRestores (l : Ledger) : Ledger :=
  { l with
    counts := l.counts.withoutRestores
    generation := none
    generations := 0
    latestRestored := none
    latestInitialization := none
    current := none
    editions := 0 }

/-- The same step of that ledger. -/
def Step.withoutRestores {α : Type} (s : Step α) : Step α :=
  { s with ledger := s.ledger.withoutRestores }

namespace Ledger

section Checkpoints

variable (l : Ledger)

theorem register_withoutRestores (id trigger : Nat) (properties : Properties)
    (groups : OrderedMap VertexId Nat) :
    l.withoutRestores.register id trigger properties groups =
      (l.register id trigger properties groups).withoutRestores := by
  unfold register
  rw [show l.withoutRestores.lastId = l.lastId from rfl]
  cases l.lastId.filter (id ≤ ·) <;> rfl

theorem acknowledge_withoutRestores (handle : Handle) (vertex : VertexId) (report : Report) :
    l.withoutRestores.acknowledge handle vertex report =
      (l.acknowledge handle vertex report).withoutRestores := by
  unfold acknowledge
  rw [show l.withoutRestores.record? handle = l.record? handle from rfl]
  cases l.record? handle with
  | none => rfl
  | some record =>
    dsimp only
    cases record.acknowledge vertex report <;> rfl

theorem route_withoutRestores (id : Nat) (vertex : VertexId) (report : Report) :
    l.withoutRestores.route id vertex report = (l.route id vertex report).withoutRestores := by
  unfold route
  rw [show l.withoutRestores.inProgress? id = l.inProgress? id from rfl]
  cases l.inProgress? id with
  | none => rfl
  | some handle => exact l.acknowledge_withoutRestores handle vertex report

theorem conclude_withoutRestores {α : Type} (handle : Handle)
    (ending : Pending → Except Error (α × Pending)) :
    l.withoutRestores.conclude handle ending = (l.conclude handle ending).withoutRestores := by
  unfold conclude
  rw [show l.withoutRestores.record? handle = l.record? handle from rfl]
  cases l.record? handle with
  | none => rfl
  | some record =>
    dsimp only
    cases ending record <;> rfl

theorem book_withoutRestores (c : Conclusion) :
    l.withoutRestores.book c = (l.book c).withoutRestores := by
  cases c with
  | completed c =>
    show { (l.bookCompleted c).withoutRestores with
      counts := l.counts.withoutRestores.addCompleted } = _
    rw [Counts.addCompleted_withoutRestores]
    rfl
  | failed f =>
    show { (l.bookFailed f).withoutRestores with
      counts := l.counts.withoutRestores.addFailed } = _
    rw [Counts.addFailed_withoutRestores]
    rfl

theorem reportCompleted_withoutRestores (c : Completed) :
    l.withoutRestores.reportCompleted c = (l.reportCompleted c).withoutRestores := by
  unfold reportCompleted
  rw [show l.withoutRestores.inProgress? c.id = l.inProgress? c.id from rfl]
  cases l.inProgress? c.id with
  | none => rfl
  | some handle =>
    dsimp only
    rw [show l.withoutRestores.bookCompleted c = _ from l.book_withoutRestores (.completed c)]
    rfl

theorem reportFailed_withoutRestores (f : Failed) :
    l.withoutRestores.reportFailed f = (l.reportFailed f).withoutRestores := by
  unfold reportFailed
  rw [show l.withoutRestores.inProgress? f.id = l.inProgress? f.id from rfl]
  cases l.inProgress? f.id with
  | none => rfl
  | some handle =>
    dsimp only
    rw [show l.withoutRestores.bookFailed f = _ from l.book_withoutRestores (.failed f)]
    rfl

/-- **What follows a checkpoint does not depend on restores.** -/
theorem perform_withoutRestores {o : Operation} (ho : o.isCheckpoint = true) :
    l.withoutRestores.perform o = (l.perform o).withoutRestores := by
  cases o with
  | register id trigger properties groups =>
    exact congrArg (Step.map _) (l.register_withoutRestores id trigger properties groups)
  | acknowledge handle vertex report =>
    exact congrArg (Step.map _) (l.acknowledge_withoutRestores handle vertex report)
  | route id vertex report =>
    exact congrArg (Step.map _) (l.route_withoutRestores id vertex report)
  | complete handle pointer metadataSize =>
    dsimp only [perform, complete]
    rw [conclude_withoutRestores]
    rfl
  | fail handle failureTime message =>
    dsimp only [perform, fail]
    rw [conclude_withoutRestores]
    rfl
  | reportCompleted c => exact congrArg (Step.map _) (l.reportCompleted_withoutRestores c)
  | reportFailed f => exact congrArg (Step.map _) (l.reportFailed_withoutRestores f)
  | reportUntriggered => rfl
  | _ => cases ho

/-- A snapshot that is made changes nothing that it shows. -/
theorem snapshot_withoutRestores :
    l.withoutRestores.snapshot.2.withoutRestores = l.snapshot.2.withoutRestores := by
  unfold Ledger.snapshot
  rw [show l.withoutRestores.current = none from rfl]
  cases l.current <;> rfl

theorem settle_withoutRestores (g : Generation) :
    (l.settle g).1.withoutRestores = l.withoutRestores := by
  rw [settle_fst]
  rfl

/-- Of what follows a restore nothing is left. -/
theorem withoutRestores_of_isRestore {o : Operation} (ho : o.isRestore = true) :
    (l.perform o).ledger.withoutRestores = l.withoutRestores := by
  cases o with
  | beginInitialization attempts start => rfl
  | reportMetrics attempt metrics =>
    show (l.reportMetrics attempt metrics).ledger.withoutRestores = _
    unfold reportMetrics
    cases l.generation.filter (·.awaits attempt) with
    | none => rfl
    | some g => exact settle_withoutRestores _ _
  | reportRestored id properties path stateSize =>
    show (l.reportRestored id properties path stateSize).ledger.withoutRestores = _
    unfold reportRestored
    cases l.generation with
    | none => rfl
    | some g => exact settle_withoutRestores _ _
  | _ => cases ho

/-- The span of a generation is not that of a checkpoint. -/
theorem settled_not_ofCheckpoint (after : Ledger × Option Initialization) :
    (settled after).filter Effect.isOfCheckpoint = [] := by
  obtain ⟨l, i⟩ := after
  cases i with
  | none => rfl
  | some i =>
    have hname : (i.span scope).name = "JobInitialization" := i.span_name scope
    simp [settled, tell, Effect.isOfCheckpoint, hname]

/-- What follows a restore is not told as of a checkpoint. -/
theorem not_ofCheckpoint_of_isRestore {o : Operation} (ho : o.isRestore = true) :
    (l.perform o).effects.filter Effect.isOfCheckpoint = [] := by
  cases o with
  | beginInitialization attempts start =>
    show (l.discardNotice ++ _).filter _ = []
    unfold discardNotice
    cases l.generation.filter (!·.completed) <;> rfl
  | reportMetrics attempt metrics =>
    show (l.reportMetrics attempt metrics).effects.filter _ = []
    unfold reportMetrics
    cases l.generation.filter (·.awaits attempt) with
    | none => rfl
    | some g => exact settled_not_ofCheckpoint _
  | reportRestored id properties path stateSize =>
    show (l.reportRestored id properties path stateSize).effects.filter _ = []
    unfold reportRestored
    cases l.generation with
    | none => rfl
    | some g => exact settled_not_ofCheckpoint _
  | _ => cases ho

end Checkpoints

/-- The side of the checkpoints. -/
def checkpointSide : Side Effect where
  kept o := !o.isRestore
  asked := Operation.isCheckpoint
  view := withoutRestores
  told effects := effects.filter Effect.isOfCheckpoint
  kept_of_asked o ho := by rw [Operation.isRestore_of_isCheckpoint ho]; rfl
  keeps l o ho := by
    by_cases hasked : o.isCheckpoint = true
    · rw [l.perform_withoutRestores hasked]
      exact ⟨rfl, fun _ => rfl, rfl⟩
    · -- only looking at the ledger is left, which makes a snapshot at most
      cases o with
      | snapshot => exact ⟨l.snapshot_withoutRestores, fun ha => absurd ha hasked, rfl⟩
      | beginInitialization _ _ => cases ho
      | reportMetrics _ _ => cases ho
      | reportRestored _ _ _ _ => cases ho
      | _ => exact absurd rfl hasked
  respects l o ho := l.withoutRestores_of_isRestore (by simpa using ho)
  silent l o ho := l.not_ofCheckpoint_of_isRestore (by simpa using ho)

/-! ## Without the checkpoints -/

/-- The same ledger, if there had never been a checkpoint and nobody had looked at it. -/
def withoutCheckpoints (l : Ledger) : Ledger :=
  { new ⟨0⟩ with
    counts := { Counts.zero with restored := l.counts.restored }
    generation := l.generation
    generations := l.generations
    latestRestored := l.latestRestored
    latestInitialization := l.latestInitialization }

end Ledger

/-- Whether a checkpoint is what was accepted. -/
def Posting.isCheckpoint : Posting → Bool
  | registered _ _ => true
  | concluded _ => true
  | untriggered => true
  | _ => false

/-- Of what follows a checkpoint nothing else is posted. -/
theorem Operation.isCheckpoint_of_posting? {o : Operation} (ho : o.isCheckpoint = true)
    {a : Answer} {p : Posting} (hp : o.posting? a = some p) : p.isCheckpoint = true := by
  unfold posting? at hp
  split at hp
  case h_5 => cases ho
  case h_6 => cases ho
  case h_7 => cases ho
  case h_8 => cases hp
  all_goals exact Option.some.inj hp ▸ rfl

namespace Ledger

theorem book_withoutCheckpoints (l : Ledger) (c : Conclusion) :
    (l.book c).withoutCheckpoints = l.withoutCheckpoints := by
  unfold withoutCheckpoints
  rw [book_restored]
  cases c <;> rfl

/-- **What is posted of a checkpoint changes nothing and tells nothing of restores.** -/
theorem Turn.withoutCheckpoints_eq {l l' : Ledger} {p : Option Posting} {effects : List Effect}
    (h : Turn l p effects l') (hp : ∀ q, p = some q → q.isCheckpoint = true) :
    l'.withoutCheckpoints = l.withoutCheckpoints ∧ initializationSpans effects = [] := by
  cases h with
  | quiet _ => exact ⟨rfl, rfl⟩
  | registered _ => exact ⟨rfl, rfl⟩
  | @concluded c _ _ =>
    -- the span of a checkpoint has another name
    exact ⟨l.book_withoutCheckpoints c, by cases c <;> rfl⟩
  | untriggered hl =>
    rw [hl]
    exact ⟨rfl, rfl⟩
  | began => exact absurd (hp _ rfl) Bool.false_ne_true
  | measured _ _ => exact absurd (hp _ rfl) Bool.false_ne_true
  | restored _ _ _ => exact absurd (hp _ rfl) Bool.false_ne_true

/-- Of what follows a checkpoint nothing is left, and nothing is told as of a generation. -/
theorem withoutCheckpoints_of_isCheckpoint (l : Ledger) {o : Operation}
    (ho : o.isCheckpoint = true) :
    (l.perform o).ledger.withoutCheckpoints = l.withoutCheckpoints ∧
      initializationSpans (l.perform o).effects = [] := by
  obtain ⟨hview, hspans⟩ := (turn l o).withoutCheckpoints_eq
    (fun _ hp => Operation.isCheckpoint_of_posting? ho hp)
  rw [initializationSpans_outward] at hspans
  exact ⟨hview, hspans⟩

section Restores

/-- Two steps that are the same to who follows restores. -/
abbrev SameRestore (s t : Step Answer) : Prop :=
  SameStep withoutCheckpoints initializationSpans true s t

variable {l l' : Ledger}

/-- **A generation is settled, and told, without looking at checkpoints.** -/
theorem sameRestore_settle (h : l.withoutCheckpoints = l'.withoutCheckpoints) (answer : Answer)
    (notices : List Effect) (g : Generation) :
    SameRestore ⟨answer, (l.settle g).1, notices ++ settled (l.settle g)⟩
      ⟨answer, (l'.settle g).1, notices ++ settled (l'.settle g)⟩ := by
  unfold settle
  cases g.complete? with
  | none => exact ⟨congrArg (fun v => { v with generation := some g }) h, fun _ => rfl, rfl⟩
  | some told =>
    obtain ⟨i, g⟩ := told
    refine ⟨congrArg (fun v => { v with generation := some g, latestInitialization := some i }) h,
      fun _ => rfl, ?_⟩
    -- the span is the same, though not what can be read when it is emitted
    have hspans (m : Ledger) : initializationSpans (notices ++ settled (m, some i)) =
        initializationSpans notices ++ [i.span scope] := by
      unfold initializationSpans
      rw [List.filterMap_append]
      exact congrArg (_ ++ ·) (initializationSpans_span i scope m.seen)
    exact (hspans _).trans (hspans _).symm

/-- **What follows a restore does not depend on checkpoints.** -/
theorem perform_withoutCheckpoints (l : Ledger) {o : Operation} (ho : o.isRestore = true) :
    SameRestore (l.withoutCheckpoints.perform o) (l.perform o) := by
  cases o with
  | beginInitialization attempts start => exact ⟨rfl, fun _ => rfl, rfl⟩
  | reportMetrics attempt metrics =>
    show SameRestore ((l.withoutCheckpoints.reportMetrics attempt metrics).map .taken)
      ((l.reportMetrics attempt metrics).map .taken)
    unfold reportMetrics
    rw [show l.withoutCheckpoints.generation = l.generation from rfl]
    cases l.generation.filter (·.awaits attempt) with
    | none => exact ⟨rfl, fun _ => rfl, rfl⟩
    | some g =>
      have hsame : l.withoutCheckpoints.touch.withoutCheckpoints = l.touch.withoutCheckpoints := rfl
      exact sameRestore_settle hsame (.taken true) [] (g.record attempt metrics)
  | reportRestored id properties path stateSize =>
    show SameRestore ((l.withoutCheckpoints.reportRestored id properties path stateSize).map _)
      ((l.reportRestored id properties path stateSize).map _)
    unfold reportRestored
    rw [show l.withoutCheckpoints.generation = l.generation from rfl]
    cases l.generation with
    | none => exact ⟨rfl, fun _ => rfl, rfl⟩
    | some g =>
      -- the restore is counted and shown before the generation is settled
      let named (l : Ledger) : Ledger :=
        { l with
          counts := l.counts.addRestored
          latestRestored := some ⟨id, properties, g.start, path, stateSize⟩ }.touch
      have hsame : (named l.withoutCheckpoints).withoutCheckpoints =
          (named l).withoutCheckpoints := rfl
      exact sameRestore_settle hsame .done [.notice (.restored id stateSize)] _
  | _ => cases ho

theorem snapshot_withoutCheckpoints (l : Ledger) :
    l.withoutCheckpoints.snapshot.2.withoutCheckpoints = l.snapshot.2.withoutCheckpoints := by
  unfold Ledger.snapshot
  rw [show l.withoutCheckpoints.current = none from rfl]
  cases l.current <;> rfl

end Restores

/-- The side of the restores. -/
def restoreSide : Side Span where
  kept o := !o.isCheckpoint
  asked := Operation.isRestore
  view := withoutCheckpoints
  told := initializationSpans
  kept_of_asked o ho := by
    cases hother : o.isCheckpoint with
    | false => rfl
    | true => exact absurd (Operation.isRestore_of_isCheckpoint hother) (by simp [ho])
  keeps l o ho := by
    by_cases hasked : o.isRestore = true
    · rw [hasked]
      exact l.perform_withoutCheckpoints hasked
    · cases o with
      | snapshot => exact ⟨l.snapshot_withoutCheckpoints, fun ha => absurd ha hasked, rfl⟩
      | beginInitialization _ _ => exact absurd rfl hasked
      | reportMetrics _ _ => exact absurd rfl hasked
      | reportRestored _ _ _ _ => exact absurd rfl hasked
      | _ => cases ho
  respects l o ho := (l.withoutCheckpoints_of_isCheckpoint (by simpa using ho)).1
  silent l o ho := (l.withoutCheckpoints_of_isCheckpoint (by simpa using ho)).2

/-! ## Both sides -/

/-- All that is known of checkpoints is the same. -/
structure SameForCheckpoints (l l' : Ledger) : Prop where
  total : l'.counts.total = l.counts.total
  inProgress : l'.counts.inProgress = l.counts.inProgress
  completed : l'.counts.completed = l.counts.completed
  failed : l'.counts.failed = l.counts.failed
  summary : l'.summary = l.summary
  /-- The entries are the same, and the latest of each kind of end. -/
  history : l'.history = l.history
  /-- The same checkpoints are in progress, under the same handles. -/
  handles : l'.inProgress = l.inProgress
  records : l'.records = l.records
  /-- Every gauge reads the same, but for the one that is of restores. -/
  gauges : ∀ g, g ≠ .restoreTime → Gauge.read (some l') g = Gauge.read (some l) g

/-- All that is known of restores is the same. -/
structure SameForRestores (l l' : Ledger) : Prop where
  restored : l'.counts.restored = l.counts.restored
  latestRestored : l'.latestRestored = l.latestRestored
  latestInitialization : l'.latestInitialization = l.latestInitialization
  generation : l'.generation = l.generation
  gauge : Gauge.read (some l') .restoreTime = Gauge.read (some l) .restoreTime

theorem sameForCheckpoints {l l' : Ledger} (h : l.withoutRestores = l'.withoutRestores) :
    SameForCheckpoints l l' where
  total := congrArg (·.counts.total) h.symm
  inProgress := congrArg (·.counts.inProgress) h.symm
  completed := congrArg (·.counts.completed) h.symm
  failed := congrArg (·.counts.failed) h.symm
  summary := congrArg (·.summary) h.symm
  history := congrArg (·.history) h.symm
  handles := congrArg (·.inProgress) h.symm
  records := congrArg (·.records) h.symm
  gauges g hg := by
    have hread : Gauge.read (some l'.withoutRestores) g = Gauge.read (some l.withoutRestores) g :=
      by rw [h]
    -- no other gauge reads what was taken away
    cases g with
    | restoreTime => exact absurd rfl hg
    | _ => exact hread

theorem sameForRestores {l l' : Ledger} (h : l.withoutCheckpoints = l'.withoutCheckpoints) :
    SameForRestores l l' where
  restored := congrArg (·.counts.restored) h.symm
  latestRestored := congrArg (·.latestRestored) h.symm
  latestInitialization := congrArg (·.latestInitialization) h.symm
  generation := congrArg (·.generation) h.symm
  gauge := by
    have hread : Gauge.read (some l'.withoutCheckpoints) .restoreTime =
        Gauge.read (some l.withoutCheckpoints) .restoreTime := by rw [h]
    exact hread

/--
**Checkpoints and restores do not interfere.** Take any operations, in any order, and
erase those that follow restores. Then those that follow checkpoints are answered the same,
in the end the same is known of checkpoints, in a snapshot as on every gauge but the one
that is of restores, and the same spans, events and calls have told of them on the way. Erase
those that follow checkpoints instead, and the others are answered the same, the same is
known of restores, and the same spans have told of complete generations.
-/
theorem checkpoints_and_restores_separate (config : Config) (ops : List Operation) :
    let start := new config
    let checkpoints := ops.filter (!·.isRestore)
    let restores := ops.filter (!·.isCheckpoint)
    (SameForCheckpoints (start.after ops) (start.after checkpoints) ∧
      start.answersTo Operation.isCheckpoint ops =
        start.answersTo Operation.isCheckpoint checkpoints ∧
      start.toldOf (·.filter Effect.isOfCheckpoint) ops =
        start.toldOf (·.filter Effect.isOfCheckpoint) checkpoints ∧
      ∃ s t, ((start.after ops).perform .snapshot).answer = .snapshot s ∧
        ((start.after checkpoints).perform .snapshot).answer = .snapshot t ∧
        t.counts.withoutRestores = s.counts.withoutRestores ∧ t.summary = s.summary ∧
        t.history = s.history) ∧
    (SameForRestores (start.after ops) (start.after restores) ∧
      start.answersTo Operation.isRestore ops =
        start.answersTo Operation.isRestore restores ∧
      start.toldOf initializationSpans ops = start.toldOf initializationSpans restores ∧
      ∃ s t, ((start.after ops).perform .snapshot).answer = .snapshot s ∧
        ((start.after restores).perform .snapshot).answer = .snapshot t ∧
        t.counts.restored = s.counts.restored ∧ t.latestRestored = s.latestRestored ∧
        t.latestInitialization = s.latestInitialization) := by
  intro start checkpoints restores
  obtain ⟨hview, hanswers, htold⟩ := checkpointSide.erase (l := start) rfl ops
  obtain ⟨hview', hanswers', htold'⟩ := restoreSide.erase (l := start) rfl ops
  have hsame := sameForCheckpoints hview
  have hsame' := sameForRestores hview'
  obtain ⟨s, hs, hshows⟩ := shown_run config ops
  obtain ⟨t, ht, htshows⟩ := shown_run config checkpoints
  obtain ⟨u, hu, hushows⟩ := shown_run config restores
  refine ⟨⟨hsame, hanswers, htold, s, t, hs, ht, ?_⟩, hsame', hanswers', htold', s, u, hs, hu, ?_⟩
  · rw [hshows, htshows]
    exact ⟨congrArg (·.counts) hview.symm, congrArg Summary.view hsame.summary, hsame.history⟩
  · rw [hshows, hushows]
    exact ⟨hsame'.restored, hsame'.latestRestored, hsame'.latestInitialization⟩

/-- A checkpoint and a restore, in turns. -/
def mixedRun : List Operation :=
  [.registerBare 1, .beginInitialization [] 5, .reportCompleted (.bare 1),
   .reportRestored 7 (.checkpoint .never) none 0, .reportUntriggered]

/-- Each is answered and counted as if the other had not been. -/
theorem mixedRun_separate :
    let start := new {}
    let checkpoints : List Operation :=
      [.registerBare 1, .reportCompleted (.bare 1), .reportUntriggered]
    let restores : List Operation :=
      [.beginInitialization [] 5, .reportRestored 7 (.checkpoint .never) none 0]
    start.answersTo Operation.isCheckpoint mixedRun = [.registered ⟨0⟩, .done, .done] ∧
      (start.after mixedRun).counts = ⟨1, 2, 0, 1, 1⟩ ∧
      SameForCheckpoints (start.after mixedRun) (start.after checkpoints) ∧
      (start.after checkpoints).counts = ⟨0, 2, 0, 1, 1⟩ ∧
      SameForRestores (start.after mixedRun) (start.after restores) ∧
      (start.after restores).counts = ⟨1, 0, 0, 0, 0⟩ := by
  intro start checkpoints restores
  obtain ⟨⟨hcheckpoints, hanswers, -, -⟩, hrestores, -, -, -⟩ :=
    checkpoints_and_restores_separate {} mixedRun
  exact ⟨hanswers, rfl, hcheckpoints, rfl, hrestores, rfl⟩

end Ledger

end CheckpointLedger
