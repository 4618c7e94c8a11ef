import CheckpointLedger.Proofs.Refusals

/-!
# The course of a generation

What is done to a ledger from the beginning of its current generation on is the
`Course` of that generation. It is read off the operations alone, whether they are
accepted or not, and forgets everything from before. Of each attempt its first report
counts, and of the checkpoints that are named the last.

The ledger goes by other rules: a report counts if it is accepted, and it is accepted if
the generation is not complete, expects the attempt, and has nothing of it yet. The two
come to the same (`matches_run`), because a generation is not complete before everybody
has reported: what is declined comes from an attempt that nobody expects, or that has
reported before.
-/

namespace CheckpointLedger

/-- What an attempt reports. -/
def Operation.metrics? : Operation → Option (AttemptId × AttemptMetrics)
  | reportMetrics attempt metrics => some (attempt, metrics)
  | _ => none

/-- The checkpoint that is named, in a generation that began at the given time. -/
def Operation.restored? (start : Nat) : Operation → Option Restored
  | reportRestored id properties path stateSize => some ⟨id, properties, start, path, stateSize⟩
  | _ => none

/-- What was done from the beginning of a generation on. -/
structure Course where
  /-- The attempts that are expected. -/
  attempts : List AttemptId
  /-- When it began. -/
  start : Nat
  /-- What was done since. -/
  since : List Operation

namespace Course

/-- The course goes on. -/
def append (c : Course) (o : Operation) : Course := { c with since := c.since ++ [o] }

/-- The next operation begins a generation, or belongs to the current one. -/
def next (current : Option Course) : Operation → Option Course
  | .beginInitialization attempts start => some ⟨attempts, start, []⟩
  | o => current.map (·.append o)

/-- The course of the generation that is current after a list of operations. -/
def of? (ops : List Operation) : Option Course := ops.foldl next none

/-- What an attempt reported first. -/
def first? (c : Course) (attempt : AttemptId) : Option AttemptMetrics :=
  (c.since.filterMap Operation.metrics?).lookup attempt

/-- The checkpoints that were named, in order. -/
def restores (c : Course) : List Restored := c.since.filterMap (Operation.restored? c.start)

/-- The checkpoint that was named last. -/
def named? (c : Course) : Option Restored := c.restores.getLast?

theorem of?_concat (ops : List Operation) (o : Operation) :
    of? (ops ++ [o]) = next (of? ops) o := List.foldl_append

theorem first?_append (c : Course) (o : Operation) (attempt : AttemptId) :
    (c.append o).first? attempt = (c.first? attempt).or (o.metrics?.toList.lookup attempt) := by
  show ((c.since ++ [o]).filterMap Operation.metrics?).lookup attempt = _
  rw [Journal.filterMap_concat, List.lookup_append]
  rfl

theorem restores_append (c : Course) (o : Operation) :
    (c.append o).restores = c.restores ++ (o.restored? c.start).toList :=
  Journal.filterMap_concat (Operation.restored? c.start) c.since o

/-! ## The course and the journal -/

/-- A course and what the journal knows of its generation. -/
structure Matches (c : Course) (e : Epoch) : Prop where
  attempts : e.attempts = c.attempts
  start : e.start = c.start
  /-- What is accepted of an expected attempt is its first report. -/
  reports : ∀ a ∈ c.attempts, e.reports.lookup a = c.first? a
  restored : e.restored = c.restores

/-- They go on together if the journal learns what is new. -/
theorem Matches.append {c : Course} {e e' : Epoch} (h : Matches c e) (o : Operation)
    (hattempts : e'.attempts = e.attempts) (hstart : e'.start = e.start)
    (hreports : ∀ a ∈ e.attempts,
      e'.reports.lookup a = (e.reports.lookup a).or (o.metrics?.toList.lookup a))
    (hrestored : e'.restored = e.restored ++ (o.restored? e.start).toList) :
    Matches (c.append o) e' where
  attempts := hattempts.trans h.attempts
  start := hstart.trans h.start
  reports := by
    intro a ha
    rw [hreports a (h.attempts ▸ ha), h.reports a ha, first?_append]
  restored := by rw [hrestored, h.restored, h.start, restores_append]

/-- A report that does not count makes no difference: it is not the first, or not expected. -/
theorem Matches.ignore {c : Course} {e : Epoch} (h : Matches c e) {attempt : AttemptId}
    (hlate : attempt ∈ e.attempts → attempt ∈ e.reports.map Prod.fst)
    (metrics : AttemptMetrics) : Matches (c.append (.reportMetrics attempt metrics)) e := by
  refine h.append _ rfl rfl (fun a ha => ?_) (List.append_nil _).symm
  show _ = (e.reports.lookup a).or ([(attempt, metrics)].lookup a)
  by_cases hat : a = attempt
  · subst hat
    obtain ⟨r, hr, hfst⟩ := List.mem_map.mp (hlate ha)
    have hsome : (e.reports.lookup a).isSome := by
      rw [List.lookup_isSome_iff]
      exact ⟨r, hr, beq_iff_eq.mpr hfst.symm⟩
    exact (Option.or_of_isSome hsome).symm
  · have hnone : [(attempt, metrics)].lookup a = none := by
      rw [List.lookup_cons, beq_eq_false_iff_ne.mpr hat]
      rfl
    rw [hnone, Option.or_none]

end Course

namespace Ledger

open Course

theorem posting?_reportMetrics (l : Ledger) (attempt : AttemptId) (metrics : AttemptMetrics) :
    ((l.perform (.reportMetrics attempt metrics)).answer.isDeclined = true ∧
      l.posting? (.reportMetrics attempt metrics) = none) ∨
    l.posting? (.reportMetrics attempt metrics) = some (.measured attempt metrics) := by
  have hanswer : (l.perform (.reportMetrics attempt metrics)).answer =
      .taken (l.reportMetrics attempt metrics).answer := rfl
  unfold posting?
  rw [hanswer]
  cases (l.reportMetrics attempt metrics).answer with
  | false => exact .inl ⟨rfl, rfl⟩
  | true => exact .inr rfl

theorem posting?_reportRestored (l : Ledger) (id : Nat) (properties : Properties)
    (path : Option String) (stateSize : Nat) :
    (l.generation = none ∧ l.posting? (.reportRestored id properties path stateSize) = none) ∨
    l.posting? (.reportRestored id properties path stateSize) =
      some (.restored id properties path stateSize) := by
  have hanswer : (l.perform (.reportRestored id properties path stateSize)).answer =
      .ofExcept (fun _ => .done) (l.reportRestored id properties path stateSize).answer := rfl
  unfold posting?
  rw [hanswer, reportRestored]
  cases l.generation with
  | none => exact .inl ⟨rfl, rfl⟩
  | some g => exact .inr rfl

/-- Whoever is expected and is declined has reported before. -/
theorem reported_of_objection {j : Journal} {l : Ledger} (h : Restoring j l) {e : Epoch}
    (he : j.epoch? = some e) {attempt : AttemptId} {metrics : AttemptMetrics}
    (hobjection : Objection j l (.reportMetrics attempt metrics))
    (hexpected : attempt ∈ e.attempts) : attempt ∈ e.reports.map Prod.fst := by
  cases hobjection with
  | nothingToMeasure hnever =>
    rw [(j.epoch?_eq_none_iff).mpr hnever] at he
    cases he
  | complete hg hdone =>
    -- a generation that is complete has heard from everybody
    obtain ⟨e', he', hready⟩ := (h.completed_iff hg).mp hdone
    obtain rfl := Option.some.inj (he'.symm.trans he)
    exact hready.1 attempt hexpected
  | unexpected he' hnot => exact absurd (Option.some.inj (he.symm.trans he') ▸ hexpected) hnot
  | measuredTwice he' htwice => exact Option.some.inj (he'.symm.trans he) ▸ htwice

/-- **Every operation takes the course and the journal on together.** -/
theorem matches_perform {j : Journal} {l : Ledger} (hl : Restoring j l) {c? : Option Course}
    (h : Option.Rel Matches c? j.epoch?) (o : Operation) :
    Option.Rel Matches (next c? o) ((l.posting? o).toList.foldl Epoch.next j.epoch?) := by
  generalize he : j.epoch? = e? at h ⊢
  -- most operations have nothing to do with generations
  have hbeside (hnext : next c? o = c?.map (·.append o)) (hmetrics : o.metrics? = none)
      (hrestored : ∀ start, o.restored? start = none)
      (hposting : ∀ a e?, (o.posting? a).toList.foldl Epoch.next e? = e?) :
      Option.Rel Matches (next c? o) ((l.posting? o).toList.foldl Epoch.next e?) := by
    rw [hnext, posting?, hposting]
    cases h with
    | none => exact .none
    | some h =>
      refine .some (h.append o rfl rfl (fun a _ => ?_) ?_)
      · rw [hmetrics]
        exact Option.or_none.symm
      · rw [hrestored]
        exact (List.append_nil _).symm
  cases o with
  | beginInitialization attempts start => exact .some ⟨rfl, rfl, fun _ _ => rfl, rfl⟩
  | reportMetrics attempt metrics =>
    rcases posting?_reportMetrics l attempt metrics with ⟨hdeclined, hp⟩ | hp
    · rw [hp]
      have hobjection := (objection_reportMetrics_iff hl attempt metrics).mp
        ((declined_reportMetrics l attempt metrics).iff.mp hdeclined)
      cases h with
      | none => exact .none
      | some h => exact .some (h.ignore (reported_of_objection hl he hobjection) metrics)
    · rw [hp]
      cases h with
      | none => exact .none
      | some h =>
        exact .some (h.append _ rfl rfl (fun _ _ => List.lookup_append) (List.append_nil _).symm)
  | reportRestored id properties path stateSize =>
    rcases posting?_reportRestored l id properties path stateSize with ⟨hnone, hp⟩ | hp
    · rw [hl.none hnone] at he
      subst he
      rw [hp]
      cases h
      exact .none
    · rw [hp]
      cases h with
      | none => exact .none
      | some h => exact .some (h.append _ rfl rfl (fun _ _ => Option.or_none.symm) rfl)
  | register => exact hbeside rfl rfl (fun _ => rfl) (fun a _ => by cases a <;> rfl)
  | reportCompleted => exact hbeside rfl rfl (fun _ => rfl) (fun a _ => by cases a <;> rfl)
  | reportFailed => exact hbeside rfl rfl (fun _ => rfl) (fun a _ => by cases a <;> rfl)
  | reportUntriggered => exact hbeside rfl rfl (fun _ => rfl) (fun a _ => by cases a <;> rfl)
  | _ => exact hbeside rfl rfl (fun _ => rfl) (fun _ _ => rfl)

theorem matches_run (config : Config) (ops : List Operation) :
    Option.Rel Matches (of? ops) ((new config).journal ops).epoch? := by
  induction ops using List.reverseRecOn with
  | nil => exact .none
  | append_singleton ops o ih =>
    rw [of?_concat, journal_concat, Journal.epoch?_append]
    exact matches_perform (restoring_run config ops) ih o

end Ledger

/-! ## The course and the places of a generation -/

theorem Generation.Follows.find?_attempts {e : Epoch} {g : Generation} (h : g.Follows e)
    (a : AttemptId) :
    g.attempts.find? a = if a ∈ e.attempts then some (e.reports.lookup a) else none := by
  cases hfind : g.attempts.find? a with
  | none =>
    have hnot : a ∉ e.attempts := fun ha => by
      obtain ⟨m, hm⟩ := (h.expected a).mpr ha
      rw [hfind] at hm
      cases hm
    rw [if_neg hnot]
  | some m =>
    rw [if_pos ((h.expected a).mp ⟨m, hfind⟩)]
    cases hlookup : e.reports.lookup a with
    | none =>
      cases m with
      | none => rfl
      | some m =>
        -- the report in the place would be found
        have hne := List.lookup_eq_none_iff.mp hlookup _ ((h.reports a m).mp hfind)
        exact absurd rfl (bne_iff_ne.mp hne)
    | some m' =>
      obtain ⟨earlier, later, hreports, _⟩ := List.lookup_eq_some_iff.mp hlookup
      have hmem : (a, m') ∈ e.reports := by
        rw [hreports]
        exact List.mem_append_right _ List.mem_cons_self
      rw [← hfind, (h.reports a m').mpr hmem]

end CheckpointLedger
