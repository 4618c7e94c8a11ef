import CheckpointLedger.Proofs.Separation

/-!
# Checkpoints named after a generation is complete

Two records tell which checkpoint the job was restored from: the one of the last complete
generation, made once when it is told, and the one of the checkpoint that was named last. At the
moment when a generation is told they agree, since the current generation never knows of another
checkpoint than the one named last (`NamedLast`).

From then on only the attempts are not listened to any more. A checkpoint that is named is taken
down even so, and the generation is not told again. So as long as no other generation begins
(`Initialized`), the one record stays as it was, and the other is that of **the last checkpoint
named since**, if any was: the two agree exactly if this is the same one, of the same size.
-/

namespace CheckpointLedger

namespace Operation

/-- The checkpoint that is named, by its id, with the size of its state. -/
def named? : Operation → Option (Nat × Nat)
  | reportRestored id _ _ stateSize => some (id, stateSize)
  | _ => none

/-- Whether the next generation begins with this. -/
def isBegin : Operation → Bool
  | beginInitialization _ _ => true
  | _ => false

/-- The checkpoint that is named last by some operations. -/
def lastNamed? (ops : List Operation) : Option (Nat × Nat) := (ops.filterMap named?).getLast?

theorem lastNamed?_concat (ops : List Operation) (o : Operation) :
    lastNamed? (ops ++ [o]) = o.named?.or (lastNamed? ops) := by
  unfold lastNamed?
  cases hnamed : o.named? with
  | none => simp [List.filterMap_append, hnamed]
  | some last => simp [List.filterMap_append, hnamed]

end Operation

namespace Ledger

variable {config : Config} {ops : List Operation} {l : Ledger} {i : Initialization}
  {last : Nat × Nat}

/-! ## Until a generation is told -/

/-- What the current generation knows of a checkpoint is what was named last. -/
def NamedLast (l : Ledger) : Prop :=
  ∀ g r, l.generation = some g → g.restored = some r → l.latestRestored = some r

/-- Settling a generation does not change what it knows, nor what was named. -/
theorem namedLast_settle {g : Generation}
    (h : ∀ r, g.restored = some r → l.latestRestored = some r) : NamedLast (l.settle g).1 := by
  intro g' r hg' hr
  rcases settle_cases l g with ⟨-, hsettle⟩ | ⟨_, -, -, -, hsettle⟩
  · rw [hsettle] at hg' ⊢
    obtain rfl := Option.some.inj hg'
    exact h r hr
  · rw [hsettle] at hg' ⊢
    obtain rfl := Option.some.inj hg'
    exact h r hr

theorem namedLast_turn {l' : Ledger} {p : Option Posting} {effects : List Effect}
    (hturn : Turn l p effects l') (h : NamedLast l) : NamedLast l' := by
  cases hturn with
  | quiet _ => exact h
  | registered _ => exact h
  | @concluded c _ _ => cases c <;> exact h
  | untriggered hl =>
    rw [hl]
    exact h
  | began =>
    intro g r hg hr
    obtain rfl := Option.some.inj hg
    cases hr
  | measured hg _ => exact namedLast_settle (fun r hr => h _ r hg hr)
  | restored _ _ hl =>
    rw [hl]
    exact namedLast_settle (fun r hr => hr)

theorem namedLast_run (config : Config) (ops : List Operation) :
    NamedLast ((new config).after ops) :=
  journal_induction (motive := fun _ l => NamedLast l) _
    (by intro g r hg; cases hg) (fun _ _ _ _ _ hturn h => namedLast_turn hturn h) ops

/-! ## From then on -/

/--
The current generation is complete, `i` is the record of it, and `last` is the checkpoint that
was named last.
-/
structure Initialized (l : Ledger) (i : Initialization) (last : Nat × Nat) : Prop where
  generation : ∃ g, l.generation = some g ∧ g.completed = true
  latestInitialization : l.latestInitialization = some i
  latestRestored : ∃ r, l.latestRestored = some r ∧ (r.id, r.stateSize) = last

/-- When a generation is told, the record is of the checkpoint that was named last. -/
theorem initialized_of_told {o : Operation}
    (h : (((new config).after ops).perform o).initialization? = some i) :
    Initialized (((new config).after ops).perform o).ledger i (i.checkpoint, i.stateSize) := by
  have ht := told_perform (restoring_run config ops) o
  obtain ⟨g, r, hg, hdone, hr, hi⟩ := ht.record i h
  have hnamed := namedLast_run config (ops ++ [o])
  rw [after_concat] at hnamed
  refine ⟨⟨g, hg, hdone⟩, ?_, r, hnamed g r hg hr, ?_⟩
  · rw [ht.latest, h, Option.some_or]
  · rw [hi]
    rfl

theorem Initialized.congr {l' : Ledger} (h : Initialized l i last) (hsame : SameForRestores l l') :
    Initialized l' i last where
  generation := by
    rw [hsame.generation]
    exact h.generation
  latestInitialization := hsame.latestInitialization.trans h.latestInitialization
  latestRestored := by
    rw [hsame.latestRestored]
    exact h.latestRestored

/-- **A checkpoint that is named late is taken down**, and nothing else is. -/
theorem initialized_perform (h : Initialized l i last) {o : Operation} (ho : o.isBegin = false) :
    Initialized (l.perform o).ledger i (o.named?.getD last) := by
  obtain ⟨g, hg, hdone⟩ := h.generation
  cases o with
  | beginInitialization attempts start => cases ho
  | reportMetrics attempt metrics =>
    -- nobody is awaited any more
    have hawaits : l.generation.filter (·.awaits attempt) = none := by
      simp [hg, Option.filter, Generation.awaits, hdone]
    have hsame : (l.perform (.reportMetrics attempt metrics)).ledger = l := by
      simp only [perform, reportMetrics, hawaits, Step.map]
    rw [hsame]
    exact h
  | reportRestored id properties path stateSize =>
    have hstays : (g.attach ⟨id, properties, g.start, path, stateSize⟩).complete? = none := by
      simp [Generation.complete?, Generation.attach, hdone]
    have hledger : (l.perform (.reportRestored id properties path stateSize)).ledger =
        { l with
          counts := l.counts.addRestored
          latestRestored := some ⟨id, properties, g.start, path, stateSize⟩
          generation := some (g.attach ⟨id, properties, g.start, path, stateSize⟩)
          current := none } := by
      simp [perform, reportRestored, hg, settle, hstays, Step.map, touch]
    rw [hledger]
    exact ⟨⟨_, rfl, hdone⟩, h.latestInitialization, _, rfl, rfl⟩
  | snapshot =>
    show Initialized l.snapshot.2 i last
    unfold snapshot
    split
    · exact h
    · exact ⟨h.generation, h.latestInitialization, h.latestRestored⟩
  | _ => exact h.congr (sameForRestores (l.withoutCheckpoints_of_isCheckpoint rfl).1.symm)

/-- **Until the next generation begins, the last checkpoint that is named is kept.** -/
theorem initialized_after (h : Initialized l i last) {later : List Operation}
    (hlater : ∀ o ∈ later, o.isBegin = false) :
    Initialized (l.after later) i ((Operation.lastNamed? later).getD last) := by
  induction later using List.reverseRecOn with
  | nil => exact h
  | append_singleton later o ih =>
    have hbefore := ih (fun o ho => hlater o (List.mem_append_left _ ho))
    have hstep := initialized_perform hbefore (hlater o (List.mem_append_right _ List.mem_cons_self))
    rw [after_concat, Operation.lastNamed?_concat]
    cases hnamed : o.named? with
    | none => rwa [hnamed] at hstep
    | some named => rwa [hnamed] at hstep

/-! ## Runs -/

/--
A run in which the current generation was told, with the record `i`, and `later` is what was
done since.
-/
structure ToldBefore (config : Config) (ops : List Operation) (i : Initialization)
    (later : List Operation) : Prop where
  told : ∃ before o, ops = before ++ o :: later ∧
    (((new config).after before).perform o).initialization? = some i
  /-- The next generation has not begun. -/
  within : ∀ o ∈ later, o.isBegin = false

/-- A generation that is complete was told. -/
theorem toldBefore_of_completed {g : Generation}
    (hg : ((new config).after ops).generation = some g) (hdone : g.completed = true) :
    ∃ i later, ToldBefore config ops i later := by
  have hready := ((restoring_run config ops).completed_iff hg).mp hdone
  clear hg hdone
  induction ops using List.reverseRecOn with
  | nil =>
    obtain ⟨e, he, -⟩ := hready
    cases he
  | append_singleton ops o ih =>
    have ht := told_perform (restoring_run config ops) o
    rw [journal_concat] at hready
    cases hi : (((new config).after ops).perform o).initialization? with
    | some i =>
      refine ⟨i, [], ⟨ops, o, rfl, hi⟩, ?_⟩
      intro o ho
      exact absurd ho List.not_mem_nil
    | none =>
      -- nothing is told now, so it was ready before, and has not begun just now
      have hbefore : ((new config).journal ops).Ready := by
        by_contra hnot
        have htold := ht.ready.mpr ⟨hnot, hready⟩
        rw [hi] at htold
        cases htold
      obtain ⟨i, later, ⟨before, first, rfl, hfirst⟩, hwithin⟩ := ih hbefore
      refine ⟨i, later ++ [o], ⟨before, first, ?_, hfirst⟩, ?_⟩
      · rw [List.append_assoc, List.cons_append]
      · intro o' ho'
        rcases List.mem_append.mp ho' with ho' | ho'
        · exact hwithin o' ho'
        · obtain rfl := List.mem_singleton.mp ho'
          cases o' with
          | beginInitialization attempts start =>
            exact absurd hready (Journal.not_ready_began _ attempts start)
          | _ => rfl

theorem ToldBefore.initialized {later : List Operation} (h : ToldBefore config ops i later) :
    Initialized ((new config).after ops) i
      ((Operation.lastNamed? later).getD (i.checkpoint, i.stateSize)) := by
  obtain ⟨before, o, rfl, hi⟩ := h.told
  rw [after_append]
  exact initialized_after (initialized_of_told hi) h.within

/--
**The records of a restore agree unless another checkpoint is named late.** Whenever the current
generation is complete, it was told at some moment of the run, and no other has begun since. The
record of it is still the latest one. The checkpoint restored last is the one that was named last
since then, or that of the record if none was; so the two records agree on id and size exactly if
no checkpoint was named since, or the last one named is the same with the same size.
-/
theorem records_agree_iff_none_named_late (config : Config) (ops : List Operation) :
    let l := (new config).after ops
    (∀ g, l.generation = some g → g.completed = true →
      ∃ i later, ToldBefore config ops i later) ∧
    ∀ i later, ToldBefore config ops i later →
      l.latestInitialization = some i ∧ ∃ r, l.latestRestored = some r ∧
        (r.id, r.stateSize) =
          (Operation.lastNamed? later).getD (i.checkpoint, i.stateSize) ∧
        ((i.checkpoint = r.id ∧ i.stateSize = r.stateSize) ↔
          ∀ last, Operation.lastNamed? later = some last → last = (i.checkpoint, i.stateSize)) := by
  intro l
  refine ⟨fun g hg hdone => toldBefore_of_completed hg hdone, fun i later htold => ?_⟩
  obtain ⟨-, hlatest, r, hr, hnamed⟩ := htold.initialized
  refine ⟨hlatest, r, hr, hnamed, ?_⟩
  rw [← Prod.mk.injEq, hnamed]
  cases Operation.lastNamed? later with
  | none => simp
  | some last => simp [eq_comm]

/-- One attempt reports; a checkpoint is named, which completes the generation, and then another. -/
def lateRun : List Operation :=
  [.beginInitialization [⟨6, by decide⟩] 5,
   .reportMetrics ⟨6, by decide⟩ ⟨5, 9, .empty, .completed⟩,
   .reportRestored 7 (.checkpoint .never) none 1, .reportRestored 8 (.checkpoint .never) none 2]

/-- The checkpoint named late is the one restored last, and not that of the complete generation. -/
theorem lateRun_disagrees :
    ¬ ∀ (config : Config) (ops : List Operation) (g : Generation) (i : Initialization)
      (r : Restored), ((new config).after ops).generation = some g → g.completed = true →
      ((new config).after ops).latestInitialization = some i →
      ((new config).after ops).latestRestored = some r →
      i.checkpoint = r.id ∧ i.stateSize = r.stateSize := by
  intro h
  have hagree := h {} lateRun _ _ _ rfl rfl rfl rfl
  exact absurd hagree.1 (by decide)

/-- If the same checkpoint is named again, they agree. -/
theorem lateRun_agrees_on_same :
    let ops := lateRun.take 3 ++ [.reportRestored 7 (.savepoint .canonical) none 1]
    ∃ i r, ((new {}).after ops).latestInitialization = some i ∧
      ((new {}).after ops).latestRestored = some r ∧
      i.checkpoint = r.id ∧ i.stateSize = r.stateSize := by
  intro ops
  obtain ⟨-, hagree⟩ := records_agree_iff_none_named_late {} ops
  have htold : ToldBefore {} ops ⟨1, 7, 1, 5, 9, .completed, 1, .empty⟩
      [.reportRestored 7 (.savepoint .canonical) none 1] := by
    refine ⟨⟨lateRun.take 2, _, rfl, rfl⟩, ?_⟩
    intro o ho
    obtain rfl := List.mem_singleton.mp ho
    rfl
  obtain ⟨hi, r, hr, -, hiff⟩ := hagree _ _ htold
  refine ⟨_, r, hi, hr, hiff.mpr ?_⟩
  intro last hlast
  exact (Option.some.inj hlast).symm

end Ledger

end CheckpointLedger
