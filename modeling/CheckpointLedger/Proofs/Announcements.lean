import CheckpointLedger.Proofs.Balance
import CheckpointLedger.Proofs.Generations
import Mathlib.Data.Finset.Card

/-!
# What is told to the outside

Apart from the log, a ledger tells the outside of a checkpoint that ended and of a
generation that became complete, by spans, events and calls of a listener. What it has to
tell of a posting is a list (`Posting.told`): three effects for a completed checkpoint, one
for a failed one, and one span for a generation, if this is the posting that completed it.
An operation tells **this list and nothing else**, in this order, and with every effect
goes what the counting gauges read when the whole operation is done (`Turn.tells`).

So the effects of a run can be counted against its journal (`Tally`), and with the journal
against the counters. For the generations the count is against the states of the run: a
span is told at the one operation that completes a generation, so there are as many spans
as generations that were seen complete (`mem_completedGenerations_iff`).
-/

namespace CheckpointLedger

/--
What there is to tell of a posting, if the counting gauges read `seen` afterwards and the
given record is that of the generation it completed.
-/
def Posting.told (seen : List Value) (given : Option Initialization) : Posting → List Effect
  | .registered _ _ => []
  | .concluded (.completed c) =>
    [.span (Ledger.spanOf c) seen, .event (Ledger.eventOf c) seen, .completed seen]
  | .concluded (.failed _) => [.failed seen]
  | .untriggered => [.failed seen]
  | .began _ _ => []
  | .measured _ _ => given.toList.map fun i => .span (i.span Ledger.scope) seen
  | .restored _ _ _ _ => given.toList.map fun i => .span (i.span Ledger.scope) seen

namespace Effect

/-- Whether this is a span of the given name. -/
def isSpan (name : String) : Effect → Bool
  | span s _ => s.name == name
  | _ => false

/-- Whether this is an event of the given name. -/
def isEvent (name : String) : Effect → Bool
  | event e _ => e.name == name
  | _ => false

/-- Whether the listener is told that a checkpoint completed. -/
def isCompleted : Effect → Bool
  | completed _ => true
  | _ => false

/-- Whether the listener is told that a checkpoint failed. -/
def isFailed : Effect → Bool
  | failed _ => true
  | _ => false

end Effect

namespace Ledger

/-! ## One operation -/

/-- What goes with an effect are the four counts. -/
theorem seen_eq (l : Ledger) :
    l.seen = [l.counts.total, l.counts.inProgress, l.counts.completed, l.counts.failed].map
      (fun n => .long (toLong n)) := rfl

theorem settle_latest (l : Ledger) (g : Generation) :
    (l.settle g).1.latestInitialization = (l.settle g).2.or l.latestInitialization := by
  unfold settle
  split <;> rfl

theorem announceSettled_eq (after : Ledger × Option Initialization) :
    announceSettled after = after.2.toList.map fun i => .span (i.span scope) after.1.seen := by
  obtain ⟨l, i⟩ := after
  cases i <;> rfl

theorem initializationSpans_toList (given : Option Initialization) (seen : List Value) :
    initializationSpans (given.toList.map fun i => .span (i.span scope) seen) =
      given.toList.map (·.span scope) := by
  cases given with
  | none => rfl
  | some i => exact initializationSpans_span i scope seen

/-- Whether a generation is told can be seen by its span. -/
theorem isSome_eq_of_spans {given given' : Option Initialization}
    (h : given.toList.map (·.span scope) = given'.toList.map (·.span scope)) :
    given.isSome = given'.isSome := by
  have hlengths := congrArg List.length h
  rw [List.length_map, List.length_map] at hlengths
  cases given with
  | none =>
    cases given' with
    | none => rfl
    | some j => cases hlengths
  | some i =>
    cases given' with
    | none => cases hlengths
    | some j => rfl

/-- A turn tells what there is to tell, of its posting and of the generation it completes. -/
structure Tells (l : Ledger) (p : Option Posting) (effects : List Effect) (l' : Ledger)
    (given : Option Initialization) : Prop where
  told : effects = p.elim [] (Posting.told l'.seen given)
  spans : initializationSpans effects = given.toList.map (·.span scope)
  latest : l'.latestInitialization = given.or l.latestInitialization

/-- The two reports of a generation end alike: with settling it. -/
theorem tells_settle {l : Ledger} {q : Posting} (l₁ : Ledger) (g : Generation)
    (hlatest : l₁.latestInitialization = l.latestInitialization)
    (hq : ∀ seen given, q.told seen given = given.toList.map fun i => .span (i.span scope) seen) :
    Tells l (some q) (announceSettled (l₁.settle g)) (l₁.settle g).1 (l₁.settle g).2 where
  told := by
    show announceSettled (l₁.settle g) = q.told _ _
    rw [hq, announceSettled_eq]
  spans := by rw [announceSettled_eq, initializationSpans_toList]
  latest := by rw [settle_latest, hlatest]

/-- **A turn tells what there is to tell**, and nothing else. -/
theorem Turn.tells {l l' : Ledger} {p : Option Posting} {effects : List Effect}
    (h : Turn l p effects l') : ∃ given, Tells l p effects l' given := by
  cases h with
  | quiet _ => exact ⟨none, rfl, rfl, rfl⟩
  | registered _ => exact ⟨none, rfl, rfl, rfl⟩
  | @concluded c _ _ => cases c <;> exact ⟨none, rfl, rfl, rfl⟩
  | untriggered hl =>
    subst hl
    exact ⟨none, rfl, rfl, rfl⟩
  | began => exact ⟨none, rfl, rfl, rfl⟩
  | measured _ _ => exact ⟨_, tells_settle l.touch _ rfl (fun _ _ => rfl)⟩
  | @restored _ _ _ _ _ l₁ _ _ _ hl =>
    exact ⟨_, tells_settle l₁ _ (by rw [hl]; rfl) (fun _ _ => rfl)⟩

/-! ## Counting effects -/

/-- The effects are as many of each kind as the journal has to tell of. -/
structure Tally (j : Journal) (effects : List Effect) : Prop where
  spans : effects.countP (·.isSpan "Checkpoint") = j.completions.length
  events : effects.countP (·.isEvent "CheckpointEvent") = j.completions.length
  completed : effects.countP (·.isCompleted) = j.completions.length
  failed : effects.countP (·.isFailed) = j.failures.length + j.untriggered

theorem Tally.append {j k : Journal} {first second : List Effect} (h : Tally j first)
    (h' : Tally k second) : Tally (j ++ k) (first ++ second) := by
  have hcompletions : Journal.completions (j ++ k) = j.completions ++ k.completions :=
    Journal.completions_append j k
  refine ⟨?_, ?_, ?_, ?_⟩
  · rw [List.countP_append, h.spans, h'.spans, hcompletions, List.length_append]
  · rw [List.countP_append, h.events, h'.events, hcompletions, List.length_append]
  · rw [List.countP_append, h.completed, h'.completed, hcompletions, List.length_append]
  · have hfailures := congrArg List.length (Journal.failures_append j k)
    have huntriggered := Journal.untriggered_append j k
    rw [List.length_append] at hfailures
    rw [List.countP_append, h.failed, h'.failed]
    omega

/-- The span of a generation is not counted with those of checkpoints. -/
theorem countP_generation (i : Initialization) (seen : List Value) :
    [Effect.span (i.span scope) seen].countP (·.isSpan "Checkpoint") = 0 := by
  have hname : Effect.isSpan "Checkpoint" (.span (i.span scope) seen) = false := by
    rw [Effect.isSpan, i.span_name]
    rfl
  rw [List.countP_singleton, hname]
  rfl

theorem tally_told (p : Posting) (seen : List Value) (given : Option Initialization) :
    Tally [p] (p.told seen given) := by
  cases p with
  | registered _ _ => exact ⟨rfl, rfl, rfl, rfl⟩
  | concluded c => cases c <;> exact ⟨rfl, rfl, rfl, rfl⟩
  | untriggered => exact ⟨rfl, rfl, rfl, rfl⟩
  | began _ _ => exact ⟨rfl, rfl, rfl, rfl⟩
  | measured _ _ =>
    cases given with
    | none => exact ⟨rfl, rfl, rfl, rfl⟩
    | some i => exact ⟨countP_generation i seen, rfl, rfl, rfl⟩
  | restored _ _ _ _ =>
    cases given with
    | none => exact ⟨rfl, rfl, rfl, rfl⟩
    | some i => exact ⟨countP_generation i seen, rfl, rfl, rfl⟩

/-- What is only written to the log is not counted. -/
theorem countP_outward {α : Type} (s : Step α) {kind : Effect → Bool}
    (h : ∀ n, kind (.notice n) = false) : s.effects.countP kind = s.outward.countP kind := by
  rw [Step.outward, List.countP_filter]
  refine List.countP_congr (fun e _ => ?_)
  cases e with
  | notice n => simp [h n]
  | _ => simp [Effect.isNotice]

theorem tally_perform (l : Ledger) (o : Operation) :
    Tally (l.posting? o).toList (l.perform o).effects := by
  have houtward : Tally (l.posting? o).toList (l.perform o).outward := by
    obtain ⟨given, htells⟩ := (turn l o).tells
    rw [htells.told]
    cases l.posting? o with
    | none => exact ⟨rfl, rfl, rfl, rfl⟩
    | some p => exact tally_told p _ given
  refine ⟨?_, ?_, ?_, ?_⟩
  · exact (countP_outward _ (fun _ => rfl)).trans houtward.spans
  · exact (countP_outward _ (fun _ => rfl)).trans houtward.events
  · exact (countP_outward _ (fun _ => rfl)).trans houtward.completed
  · exact (countP_outward _ (fun _ => rfl)).trans houtward.failed

theorem tally_run (l : Ledger) (ops : List Operation) :
    Tally (l.journal ops) ((l.run ops).flatMap (·.effects)) := by
  induction ops generalizing l with
  | nil => exact ⟨rfl, rfl, rfl, rfl⟩
  | cons o rest ih =>
    have hrest := ih (l.perform o).ledger
    exact (tally_perform l o).append hrest

/-! ## Counting generations -/

/-- The number of the current generation, if that is complete. -/
def completedGeneration? (l : Ledger) : Option Nat :=
  (l.generation.filter (·.completed)).map (·.number)

/-- The numbers of the generations that were complete after some operation of a run. -/
def completedGenerations (l : Ledger) (ops : List Operation) : List Nat :=
  (l.run ops).filterMap (·.ledger.completedGeneration?)

theorem completedGenerations_concat (l : Ledger) (ops : List Operation) (o : Operation) :
    l.completedGenerations (ops ++ [o]) =
      l.completedGenerations ops ++ (l.after (ops ++ [o])).completedGeneration?.toList := by
  rw [completedGenerations, run_concat, Journal.filterMap_concat, after_concat]
  rfl

theorem completedGeneration?_eq_some_iff (l : Ledger) (n : Nat) :
    l.completedGeneration? = some n ↔
      ∃ g, l.generation = some g ∧ g.completed = true ∧ g.number = n := by
  rw [completedGeneration?, Option.map_eq_some_iff]
  simp only [Option.filter_eq_some_iff, and_assoc]

/-- The current generation is complete exactly if its epoch is ready. -/
theorem Restoring.ready_iff {j : Journal} {l : Ledger} (h : Restoring j l) :
    j.Ready ↔ l.completedGeneration?.isSome := by
  rw [Option.isSome_iff_exists]
  simp only [completedGeneration?_eq_some_iff]
  constructor
  · intro hready
    cases hg : l.generation with
    | none =>
      obtain ⟨e, he, -⟩ := hready
      rw [h.none hg] at he
      cases he
    | some g => exact ⟨g.number, g, rfl, (h.completed_iff hg).mpr hready, rfl⟩
  · rintro ⟨n, g, hg, hcompleted, -⟩
    exact (h.completed_iff hg).mp hcompleted

theorem Restoring.number_eq {j : Journal} {l : Ledger} (h : Restoring j l) {n : Nat}
    (hn : l.completedGeneration? = Option.some n) : n = l.generations := by
  obtain ⟨g, hg, -, hnumber⟩ := (completedGeneration?_eq_some_iff l n).mp hn
  exact hnumber.symm.trans (h.some g hg).1

/-- As long as the current generation stays ready, it stays the current one. -/
theorem generations_of_ready {j : Journal} {l l' : Ledger} {p : Option Posting}
    {effects : List Effect} (hturn : Turn l p effects l')
    (hready : Journal.Ready (j ++ p.toList)) : l'.generations = l.generations := by
  rcases hturn.restores with ⟨-, -, -, hsame⟩ | ⟨attempts, start, rfl, -, -⟩ |
    ⟨q, g, g', l₁, -, -, -, -, hsame, -, rfl⟩
  · exact hsame.generations
  · exact absurd hready (j.not_ready_began attempts start)
  · rw [settle_fst]
    exact hsame.generations

/-- What is told of a generation leaves it complete. -/
theorem Told.completedGeneration? {j : Journal} {l l' : Ledger} {p : Option Posting}
    {effects : List Effect} {given : Option Initialization} (h : Told j l p effects l' given)
    {i : Initialization} (hi : given = some i) :
    l'.completedGeneration? = some i.generation := by
  obtain ⟨g, named, hg, hcompleted, -, hrecord⟩ := h.record i hi
  exact (completedGeneration?_eq_some_iff l' i.generation).mpr
    ⟨g, hg, hcompleted, by rw [hrecord]; rfl⟩

/-- A generation that is complete has been told. -/
theorem told_of_completed (config : Config) (ops : List Operation) {n : Nat}
    (hn : ((new config).after ops).completedGeneration? = some n) :
    n ∈ ((new config).initializations ops).map (·.generation) := by
  induction ops using List.reverseRecOn generalizing n with
  | nil => cases hn
  | append_singleton ops o ih =>
    have hbefore := restoring_run config ops
    have hafter := restoring_run config (ops ++ [o])
    have ht := told_perform hbefore o
    have hready : ((new config).journal (ops ++ [o])).Ready :=
      hafter.ready_iff.mpr (by rw [hn]; rfl)
    rw [initializations_concat, List.map_append]
    by_cases hwas : ((new config).journal ops).Ready
    · -- it was complete before, under the same number
      obtain ⟨m, hm⟩ := Option.isSome_iff_exists.mp (hbefore.ready_iff.mp hwas)
      have hstays := generations_of_ready (turn ((new config).after ops) o)
        (by rw [← journal_concat]; exact hready)
      have hsame : n = m := by
        rw [hafter.number_eq hn, hbefore.number_eq hm, after_concat, hstays]
      exact List.mem_append_left _ (hsame ▸ ih hm)
    · -- it became so just now
      rw [journal_concat] at hready
      obtain ⟨i, hi⟩ := Option.isSome_iff_exists.mp (ht.ready.mpr ⟨hwas, hready⟩)
      have hi' := ht.completedGeneration? hi
      rw [← after_concat, hn] at hi'
      refine List.mem_append_right _ (List.mem_map.mpr ⟨i, Option.mem_toList.mpr hi, ?_⟩)
      exact (Option.some.inj hi').symm

/-- **The generations that were complete at some time are those that were told.** -/
theorem mem_completedGenerations_iff (config : Config) (ops : List Operation) (n : Nat) :
    n ∈ (new config).completedGenerations ops ↔
      n ∈ ((new config).initializations ops).map (·.generation) := by
  induction ops using List.reverseRecOn with
  | nil => exact Iff.rfl
  | append_singleton ops o ih =>
    have ht := told_perform (restoring_run config ops) o
    constructor
    · intro hn
      rw [completedGenerations_concat, List.mem_append] at hn
      rcases hn with hn | hn
      · rw [initializations_concat, List.map_append]
        exact List.mem_append_left _ (ih.mp hn)
      · exact told_of_completed config (ops ++ [o]) (Option.mem_toList.mp hn)
    · intro hn
      rw [initializations_concat, List.map_append, List.mem_append] at hn
      rw [completedGenerations_concat, List.mem_append, after_concat]
      rcases hn with hn | hn
      · exact .inl (ih.mpr hn)
      · obtain ⟨i, hi, rfl⟩ := List.mem_map.mp hn
        exact .inr (Option.mem_toList.mpr (ht.completedGeneration? (Option.mem_toList.mp hi)))

/-- There are as many spans of generations as generations that were complete at some time. -/
theorem countP_initialization_run (config : Config) (ops : List Operation) :
    (((new config).run ops).flatMap (·.effects)).countP (·.isSpan "JobInitialization") =
      ((new config).completedGenerations ops).toFinset.card := by
  have hspans : ∀ effects : List Effect,
      effects.countP (·.isSpan "JobInitialization") = (initializationSpans effects).length := by
    intro effects
    rw [initializationSpans, List.length_filterMap_eq_countP]
    refine List.countP_congr (fun e _ => ?_)
    cases e with
    | span s seen =>
      rw [Effect.isSpan, Effect.initializationSpan?]
      by_cases hname : s.name = "JobInitialization" <;> simp [hname]
    | _ => simp [Effect.isSpan, Effect.initializationSpan?]
  have hflat : initializationSpans (((new config).run ops).flatMap (·.effects)) =
      ((new config).initializations ops).map (·.span scope) := by
    rw [← initializationSpans_run]
    exact List.filterMap_flatMap
  -- no generation is told twice, so their numbers are as many as the records
  have hnodup : (((new config).initializations ops).map (·.generation)).Nodup :=
    List.pairwise_map.mpr ((recorded_run config ops).increasing.imp Nat.ne_of_lt)
  have hsame : ((new config).completedGenerations ops).toFinset =
      (((new config).initializations ops).map (·.generation)).toFinset := by
    ext n
    rw [List.mem_toFinset, List.mem_toFinset, mem_completedGenerations_iff]
  rw [hspans, hflat, hsame, List.toFinset_card_of_nodup hnodup, List.length_map, List.length_map]

/-! ## The whole account -/

/--
**What is told is exact, and told when everything is done.** After any run, what an
operation tells the outside is what there is to tell of its posting, with the counting
gauges as they read after the operation, which are the four counts by then. A generation is told exactly if the operation
completes it: there was no complete one before, and there is now. So over the whole run
there are as many spans of checkpoints, as many events and as many calls for completed
checkpoints as these are counted, as many calls for failed ones, and as many spans of
initializations as there were complete generations.
-/
theorem effects_follow_postings (config : Config) (ops : List Operation) :
    let l := (new config).after ops
    let effects := ((new config).run ops).flatMap (·.effects)
    (∀ o, let s := l.perform o
      ∃ given : Option Initialization,
        s.outward = (l.posting? o).elim [] (Posting.told s.ledger.seen given) ∧
        s.ledger.seen = [s.ledger.counts.total, s.ledger.counts.inProgress,
          s.ledger.counts.completed, s.ledger.counts.failed].map (fun n => .long (toLong n)) ∧
        (given.isSome ↔
          l.completedGeneration? = none ∧ s.ledger.completedGeneration?.isSome) ∧
        s.ledger.latestInitialization = given.or l.latestInitialization) ∧
    effects.countP (·.isSpan "Checkpoint") = l.counts.completed ∧
    effects.countP (·.isEvent "CheckpointEvent") = l.counts.completed ∧
    effects.countP (·.isCompleted) = l.counts.completed ∧
    effects.countP (·.isFailed) = l.counts.failed ∧
    effects.countP (·.isSpan "JobInitialization") =
      ((new config).completedGenerations ops).toFinset.card := by
  intro l effects
  have hcounts : l.counts = ((new config).journal ops).counts := counts_run config ops
  have htally : Tally ((new config).journal ops) effects := tally_run (new config) ops
  refine ⟨fun o => ?_, ?_, ?_, ?_, ?_, countP_initialization_run config ops⟩
  · have hbefore := restoring_run config ops
    have hafter : Restoring ((new config).journal (ops ++ [o])) (l.perform o).ledger := by
      rw [← after_concat]
      exact restoring_run config (ops ++ [o])
    obtain ⟨given, htells⟩ := (turn l o).tells
    have ht := told_perform hbefore o
    have hsame : given.isSome = (l.perform o).initialization?.isSome :=
      isSome_eq_of_spans (htells.spans.symm.trans ((initializationSpans_outward _).trans ht.spans))
    refine ⟨given, htells.told, seen_eq _, ?_, htells.latest⟩
    rw [hsame, ht.ready, ← journal_concat, hafter.ready_iff, hbefore.ready_iff,
      Option.not_isSome_iff_eq_none]
  · rw [htally.spans, hcounts]
    rfl
  · rw [htally.events, hcounts]
    rfl
  · rw [htally.completed, hcounts]
    rfl
  · rw [htally.failed, hcounts]
    rfl

end Ledger

end CheckpointLedger
