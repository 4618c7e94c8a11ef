import CheckpointLedger.Proofs.Retention

/-!
# What the room of the history matters to

The room that the history has decides which entries it retains. Nothing else is to
depend on it: not an answer, not what is told to the outside, and not what is kept of the
latest ends, which outlast their entries.

This is a statement about two runs, and is brought back to one. Take from a ledger the
entries of its history and all room for new ones (`roomless`). **Every operation does to
the rest what it does to the whole** (`perform_roomless`), so a run of any ledger, with
the entries taken away, is the run of the ledger that never had room (`run_roomless`).
Two ledgers that were set up with different room have this run in common.

What is retained is then known from either journal, since the journals are the same.
-/

namespace CheckpointLedger

/-- Takes the entries away, and the room for new ones. -/
def History.roomless (h : History) : History := { h with capacity := 0, entries := [] }

/-- A snapshot of a ledger without room. -/
def Snapshot.roomless (s : Snapshot) : Snapshot := { s with history := s.history.roomless }

/-- The same ledger, if its history never had room. -/
def Ledger.roomless (l : Ledger) : Ledger :=
  { l with history := l.history.roomless, current := l.current.map Snapshot.roomless }

/-- Of all answers only a snapshot shows entries. -/
def Answer.roomless : Answer → Answer
  | .snapshot s => .snapshot s.roomless
  | a => a

namespace Step

/-- The same step of a ledger without room. -/
def roomless (s : Step Answer) : Step Answer := ⟨s.answer.roomless, s.ledger.roomless, s.effects⟩

/-- The same step of a ledger without room, where the answer is no snapshot. -/
def inRoomless {α : Type} (s : Step α) : Step α := { s with ledger := s.ledger.roomless }

theorem map_inRoomless {α : Type} {f : α → Answer} (hf : ∀ a, (f a).roomless = f a) (s : Step α) :
    s.inRoomless.map f = (s.map f).roomless := by
  unfold map roomless inRoomless
  rw [hf]

end Step

theorem Answer.ofExcept_roomless {α : Type} {f : α → Answer} (hf : ∀ a, (f a).roomless = f a)
    (x : Except Error α) : (ofExcept f x).roomless = ofExcept f x := by
  cases x with
  | ok a => exact hf a
  | error e => rfl

namespace History

theorem roomless_trigger (h : History) (id : Nat) (handle : Handle) :
    h.roomless.trigger id handle = (h.trigger id handle).roomless := by
  rw [trigger_eq h]
  exact if_pos rfl

theorem roomless_remember (h : History) (c : Conclusion) :
    h.roomless.remember c = (h.remember c).roomless := by
  unfold remember
  cases c with
  | completed c => dsimp only; split <;> rfl
  | failed f => rfl

theorem roomless_conclude (h : History) (c : Conclusion) :
    h.roomless.conclude c = (h.conclude c).roomless := by
  rw [conclude_eq h]
  show (if (h.roomless.remember c).capacity = 0 then h.roomless.remember c else _) = _
  rw [roomless_remember]
  exact if_pos rfl

end History

namespace Ledger

variable (l : Ledger)

/-! ## Step by step -/

theorem roomless_record? (handle : Handle) : l.roomless.record? handle = l.record? handle := rfl

theorem roomless_inProgress? (id : Nat) : l.roomless.inProgress? id = l.inProgress? id := rfl

theorem roomless_lastId : l.roomless.lastId = l.lastId := rfl

theorem roomless_generation : l.roomless.generation = l.generation := rfl

theorem roomless_current : l.roomless.current = l.current.map Snapshot.roomless := rfl

theorem roomless_seen : l.roomless.seen = l.seen := rfl

theorem roomless_enter (record : Pending) :
    l.roomless.enter record = (l.enter record).roomless := by
  show { l.enter record with
    history := l.history.roomless.trigger record.id ⟨l.records.length⟩ } = _
  rw [History.roomless_trigger]
  rfl

theorem roomless_bookCompleted (c : Completed) :
    l.roomless.bookCompleted c = (l.bookCompleted c).roomless := by
  show { l.bookCompleted c with history := l.history.roomless.conclude (.completed c) } = _
  rw [History.roomless_conclude]
  rfl

theorem roomless_bookFailed (f : Failed) :
    l.roomless.bookFailed f = (l.bookFailed f).roomless := by
  show { l.bookFailed f with history := l.history.roomless.conclude (.failed f) } = _
  rw [History.roomless_conclude]
  rfl

theorem roomless_register (id trigger : Nat) (properties : Properties)
    (groups : OrderedMap VertexId Nat) :
    l.roomless.register id trigger properties groups =
      (l.register id trigger properties groups).inRoomless := by
  unfold register
  rw [roomless_lastId]
  cases l.lastId.filter (id ≤ ·) with
  | some last => rfl
  | none =>
    dsimp only
    rw [roomless_enter]
    rfl

theorem roomless_acknowledge (handle : Handle) (vertex : VertexId) (report : Report) :
    l.roomless.acknowledge handle vertex report =
      (l.acknowledge handle vertex report).inRoomless := by
  unfold acknowledge
  rw [roomless_record?]
  cases l.record? handle with
  | none => rfl
  | some record =>
    dsimp only
    cases record.acknowledge vertex report <;> rfl

theorem roomless_route (id : Nat) (vertex : VertexId) (report : Report) :
    l.roomless.route id vertex report = (l.route id vertex report).inRoomless := by
  unfold route
  rw [roomless_inProgress?]
  cases l.inProgress? id with
  | none => rfl
  | some handle => exact l.roomless_acknowledge handle vertex report

theorem roomless_conclude {α : Type} (handle : Handle)
    (ending : Pending → Except Error (α × Pending)) :
    l.roomless.conclude handle ending = (l.conclude handle ending).inRoomless := by
  unfold conclude
  rw [roomless_record?]
  cases l.record? handle with
  | none => rfl
  | some record =>
    dsimp only
    cases ending record <;> rfl

theorem roomless_reportCompleted (c : Completed) :
    l.roomless.reportCompleted c = (l.reportCompleted c).inRoomless := by
  unfold reportCompleted
  rw [roomless_inProgress?]
  cases l.inProgress? c.id with
  | none => rfl
  | some handle =>
    dsimp only
    rw [roomless_bookCompleted, roomless_seen]
    rfl

theorem roomless_reportFailed (f : Failed) :
    l.roomless.reportFailed f = (l.reportFailed f).inRoomless := by
  unfold reportFailed
  rw [roomless_inProgress?]
  cases l.inProgress? f.id with
  | none => rfl
  | some handle =>
    dsimp only
    rw [roomless_bookFailed, roomless_seen]
    rfl

/-- A generation is settled, and told, without looking at the history. -/
theorem roomless_settle {α : Type} (answer : α) (notices : List Effect) (g : Generation) :
    (⟨answer, (l.roomless.settle g).1, notices ++ settled (l.roomless.settle g)⟩ : Step α) =
      Step.inRoomless ⟨answer, (l.settle g).1, notices ++ settled (l.settle g)⟩ := by
  unfold settle
  cases g.complete? <;> rfl

theorem roomless_reportMetrics (attempt : AttemptId) (metrics : AttemptMetrics) :
    l.roomless.reportMetrics attempt metrics = (l.reportMetrics attempt metrics).inRoomless := by
  unfold reportMetrics
  rw [roomless_generation]
  cases l.generation.filter (·.awaits attempt) with
  | none => rfl
  | some g => exact l.touch.roomless_settle true [] (g.record attempt metrics)

theorem roomless_reportRestored (id : Nat) (properties : Properties) (path : Option String)
    (stateSize : Nat) :
    l.roomless.reportRestored id properties path stateSize =
      (l.reportRestored id properties path stateSize).inRoomless := by
  unfold reportRestored
  rw [roomless_generation]
  cases l.generation with
  | none => rfl
  | some g =>
    exact roomless_settle
      { l with
        counts := l.counts.addRestored
        latestRestored := some ⟨id, properties, g.start, path, stateSize⟩ }.touch
      (Except.ok ()) [.notice (.restored id stateSize)] _

theorem roomless_snapshot :
    l.roomless.snapshot = (l.snapshot.1.roomless, l.snapshot.2.roomless) := by
  unfold Ledger.snapshot
  rw [roomless_current]
  cases l.current <;> rfl

/-- **An operation does to a ledger without room what it does to any.** -/
theorem perform_roomless (o : Operation) : l.roomless.perform o = (l.perform o).roomless := by
  cases o with
  | register id trigger properties groups =>
    show (l.roomless.register id trigger properties groups).map _ = _
    rw [roomless_register]
    exact Step.map_inRoomless (Answer.ofExcept_roomless fun _ => rfl) _
  | acknowledge handle vertex report =>
    show (l.roomless.acknowledge handle vertex report).map _ = _
    rw [roomless_acknowledge]
    exact Step.map_inRoomless (fun _ => rfl) _
  | route id vertex report =>
    show (l.roomless.route id vertex report).map _ = _
    rw [roomless_route]
    exact Step.map_inRoomless (fun _ => rfl) _
  | complete handle pointer metadataSize =>
    dsimp only [perform, complete]
    rw [roomless_conclude]
    refine Step.map_inRoomless (fun a => ?_) _
    cases a with
    | none => rfl
    | some e => exact Answer.ofExcept_roomless (fun _ => rfl) e
  | fail handle failureTime message =>
    dsimp only [perform, fail]
    rw [roomless_conclude]
    refine Step.map_inRoomless (fun a => ?_) _
    cases a with
    | none => rfl
    | some e => exact Answer.ofExcept_roomless (fun _ => rfl) e
  | reportCompleted c =>
    show (l.roomless.reportCompleted c).map _ = _
    rw [roomless_reportCompleted]
    exact Step.map_inRoomless (Answer.ofExcept_roomless fun _ => rfl) _
  | reportFailed f =>
    show (l.roomless.reportFailed f).map _ = _
    rw [roomless_reportFailed]
    exact Step.map_inRoomless (Answer.ofExcept_roomless fun _ => rfl) _
  | reportMetrics attempt metrics =>
    show (l.roomless.reportMetrics attempt metrics).map _ = _
    rw [roomless_reportMetrics]
    exact Step.map_inRoomless (fun _ => rfl) _
  | reportRestored id properties path stateSize =>
    show (l.roomless.reportRestored id properties path stateSize).map _ = _
    rw [roomless_reportRestored]
    exact Step.map_inRoomless (Answer.ofExcept_roomless fun _ => rfl) _
  | reportUntriggered => rfl
  | beginInitialization attempts start => rfl
  | snapshot =>
    show Step.mk (Answer.snapshot l.roomless.snapshot.1) l.roomless.snapshot.2 [] = _
    rw [roomless_snapshot]
    rfl

/-! ## Whole runs -/

/-- **A run without room is any run, with the entries taken away.** -/
theorem run_roomless (ops : List Operation) :
    l.roomless.run ops = (l.run ops).map Step.roomless := by
  induction ops generalizing l with
  | nil => rfl
  | cons o rest ih =>
    show l.roomless.perform o :: (l.roomless.perform o).ledger.run rest = _
    rw [perform_roomless]
    exact congrArg ((l.perform o).roomless :: ·) (ih (l.perform o).ledger)

theorem after_roomless (ops : List Operation) : l.roomless.after ops = (l.after ops).roomless := by
  induction ops generalizing l with
  | nil => rfl
  | cons o rest ih =>
    show (l.roomless.perform o).ledger.after rest = _
    rw [perform_roomless]
    exact ih (l.perform o).ledger

/-- What is posted does not depend on the entries that a snapshot shows. -/
theorem posting?_roomless (o : Operation) (a : Answer) : o.posting? a.roomless = o.posting? a := by
  cases a with
  | snapshot s => cases o <;> rfl
  | _ => rfl

theorem journal_roomless (ops : List Operation) : l.roomless.journal ops = l.journal ops := by
  induction ops generalizing l with
  | nil => rfl
  | cons o rest ih =>
    show (o.posting? (l.roomless.perform o).answer).toList ++
      (l.roomless.perform o).ledger.journal rest = _
    rw [perform_roomless]
    show (o.posting? (l.perform o).answer.roomless).toList ++
      (l.perform o).ledger.roomless.journal rest = _
    rw [posting?_roomless, ih]
    rfl

/-! ## Two ledgers -/

variable {l} {l' : Ledger}

/-- All that two ledgers have in common whose histories differ in what they retain. -/
structure Alike (l l' : Ledger) : Prop where
  /-- The records say the same. -/
  records : l.records = l'.records
  /-- So do the counts. -/
  counts : l.counts = l'.counts
  /-- So do the figures. -/
  summary : l.summary = l'.summary
  /-- The same checkpoints are in progress, under the same handles. -/
  inProgress : l.inProgress = l'.inProgress
  /-- The same id was registered last. -/
  lastId : l.lastId = l'.lastId
  /-- The latest completed checkpoint is the same, savepoints included. -/
  latestCompleted : l.latestCompleted = l'.latestCompleted
  /-- The histories have the same latest completed checkpoint, savepoints aside. -/
  latestCheckpoint : l.history.latestCompleted = l'.history.latestCompleted
  /-- They have the same latest savepoint. -/
  latestSavepoint : l.history.latestSavepoint = l'.history.latestSavepoint
  /-- They have the same latest failed checkpoint. -/
  latestFailed : l.history.latestFailed = l'.history.latestFailed
  /-- The same generation of attempts is at work. -/
  generation : l.generation = l'.generation
  /-- There were as many of them. -/
  generations : l.generations = l'.generations
  /-- The job was restored from the same checkpoint. -/
  latestRestored : l.latestRestored = l'.latestRestored
  /-- The last complete generation is the same. -/
  latestInitialization : l.latestInitialization = l'.latestInitialization
  /-- As many snapshots were made. -/
  editions : l.editions = l'.editions
  /-- Every gauge reads the same. -/
  gauges : ∀ g, Gauge.read (some l) g = Gauge.read (some l') g

theorem alike_of_roomless (h : l.roomless = l'.roomless) : Alike l l' where
  records := congrArg (·.records) h
  counts := congrArg (·.counts) h
  summary := congrArg (·.summary) h
  inProgress := congrArg (·.inProgress) h
  lastId := congrArg (·.lastId) h
  latestCompleted := congrArg (·.latestCompleted) h
  latestCheckpoint := congrArg (·.history.latestCompleted) h
  latestSavepoint := congrArg (·.history.latestSavepoint) h
  latestFailed := congrArg (·.history.latestFailed) h
  generation := congrArg (·.generation) h
  generations := congrArg (·.generations) h
  latestRestored := congrArg (·.latestRestored) h
  latestInitialization := congrArg (·.latestInitialization) h
  editions := congrArg (·.editions) h
  gauges g := by
    have hread : Gauge.read (some l.roomless) g = Gauge.read (some l'.roomless) g := by rw [h]
    cases g <;> exact hread

/-- Who does not ask for a snapshot is shown no entries. -/
theorem answer_roomless {o : Operation} (ho : o ≠ .snapshot) :
    (l.perform o).answer.roomless = (l.perform o).answer := by
  cases o with
  | snapshot => exact absurd rfl ho
  | complete handle pointer metadataSize =>
    dsimp only [perform, Step.map]
    cases (l.complete handle pointer metadataSize).answer with
    | none => rfl
    | some e => exact Answer.ofExcept_roomless (fun _ => rfl) e
  | fail handle failureTime message =>
    dsimp only [perform, Step.map]
    cases (l.fail handle failureTime message).answer with
    | none => rfl
    | some e => exact Answer.ofExcept_roomless (fun _ => rfl) e
  | register id trigger properties groups => exact Answer.ofExcept_roomless (fun _ => rfl) _
  | reportCompleted c => exact Answer.ofExcept_roomless (fun _ => rfl) _
  | reportFailed f => exact Answer.ofExcept_roomless (fun _ => rfl) _
  | reportRestored id properties path stateSize =>
    exact Answer.ofExcept_roomless (fun _ => rfl) _
  | _ => rfl

/-- Of two parts at the end of a list, the smaller is at the end of the larger. -/
theorem reverse_rtake_of_le {α β : Type} (f : α → β) (xs : List α) {small large : Nat}
    (h : small ≤ large) :
    ((xs.rtake small).map f).reverse =
      ((xs.rtake large).map f).reverse.take
        (min small ((xs.rtake large).map f).reverse.length) := by
  have hreverse (room : Nat) : ((xs.rtake room).map f).reverse = (xs.reverse.take room).map f := by
    rw [List.rtake_eq_reverse_take_reverse, List.map_reverse, List.reverse_reverse]
  rw [hreverse, hreverse, ← List.map_take, List.take_take, List.length_map, List.length_take]
  refine congrArg (List.map f) (List.take_eq_take_iff.mpr ?_)
  omega

/--
**The room of the history matters to its entries only.** Of two ledgers, one with less
room and one with more, that were set up alike otherwise and of which the same was asked
so far, all is the same but what the histories retain: records, counts and figures, the
checkpoints in progress, the latest of each kind of end, the restores, and what every
gauge reads. So it was after every step on the way, and every step brought about the same,
entries aside. Whatever is asked next, they tell the outside the same and answer the same,
and if it is a snapshot, this is of the same edition and shows the same, entries aside.
And the entries of the one are the latest of the other, as many as there is room for.
-/
theorem room_matters_to_entries_only {small large : Nat} (hroom : small ≤ large)
    (ops : List Operation) :
    let l := (new ⟨small⟩).after ops
    let l' := (new ⟨large⟩).after ops
    Alike l l' ∧
    ((new ⟨small⟩).run ops).map Step.roomless = ((new ⟨large⟩).run ops).map Step.roomless ∧
    (∀ o, (l.perform o).effects = (l'.perform o).effects) ∧
    (∀ o, o ≠ .snapshot → (l.perform o).answer = (l'.perform o).answer) ∧
    (∃ s s', (l.perform .snapshot).answer = .snapshot s ∧
      (l'.perform .snapshot).answer = .snapshot s' ∧ s.edition = s'.edition ∧
      s.roomless = s'.roomless) ∧
    l.history.latestFirst =
      l'.history.latestFirst.take (min small l'.history.latestFirst.length) := by
  intro l l'
  -- both are the ledger that never had room, with entries of their own
  have hcommon : l.roomless = l'.roomless :=
    (after_roomless (new ⟨small⟩) ops).symm.trans (after_roomless (new ⟨large⟩) ops)
  have hstep (o : Operation) : (l.perform o).roomless = (l'.perform o).roomless := by
    rw [← perform_roomless, hcommon, perform_roomless]
  have hsnapshot : l.snapshot.1.roomless = l'.snapshot.1.roomless :=
    Answer.snapshot.inj (congrArg (·.answer) (hstep .snapshot))
  have hrun : ((new ⟨small⟩).run ops).map Step.roomless =
      ((new ⟨large⟩).run ops).map Step.roomless :=
    (run_roomless (new ⟨small⟩) ops).symm.trans (run_roomless (new ⟨large⟩) ops)
  refine ⟨alike_of_roomless hcommon, hrun, fun o => congrArg (·.effects) (hstep o), fun o ho => ?_,
    ⟨_, _, rfl, rfl, congrArg (·.edition) hsnapshot, hsnapshot⟩, ?_⟩
  · rw [← answer_roomless (l := l) ho, ← answer_roomless (l := l') ho]
    exact congrArg (·.answer) (hstep o)
  · have hjournal : (new ⟨small⟩).journal ops = (new ⟨large⟩).journal ops :=
      ((new ⟨small⟩).journal_roomless ops).symm.trans ((new ⟨large⟩).journal_roomless ops)
    have h := (retained_run ⟨small⟩ ops).entries
    rw [hjournal] at h
    rw [History.latestFirst, History.latestFirst, h, (retained_run ⟨large⟩ ops).entries]
    exact reverse_rtake_of_le _ _ hroom

/-- Two checkpoints in progress, the first of which ends. -/
def pairRun : List Operation :=
  [.registerBare 1, .registerBare 2, .reportCompleted (.bare 1)]

/-- With room for one the second is retained only; what is told next is the same. -/
theorem pairRun_room :
    let l := (new ⟨1⟩).after pairRun
    let l' := (new ⟨3⟩).after pairRun
    1 ≤ 3 ∧ l.history.latestCompleted = l'.history.latestCompleted ∧
    (l.perform (.reportFailed ⟨(Completed.bare 2).toGathered, 9, none⟩)).effects =
      (l'.perform (.reportFailed ⟨(Completed.bare 2).toGathered, 9, none⟩)).effects ∧
    l.history.latestFirst = l'.history.latestFirst.take 1 ∧
    l'.history.latestFirst.length = 2 := by
  have hroom : 1 ≤ 3 := by decide
  obtain ⟨halike, -, heffects, -, -, hprefix⟩ :=
    room_matters_to_entries_only hroom pairRun
  exact ⟨hroom, halike.latestCheckpoint, heffects _, hprefix, rfl⟩

end Ledger

end CheckpointLedger
