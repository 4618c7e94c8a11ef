import CheckpointLedger.Proofs.Attributes
import CheckpointLedger.Proofs.Journal
import CheckpointLedger.Proofs.Maps
import Mathlib.Data.List.Basic
import Mathlib.Data.List.Induction

/-!
# A generation is told once, when it is ready

The journal knows of the current generation what began it and what was accepted
since: its `Epoch`. It is **ready** when every expected attempt has reported and
the checkpoint is known.

The ledger does not look for readiness in this way. It counts the places that are
still empty, and only when a report has just been accepted. That this comes to the
same is the invariant `Restoring`: the places of the current generation hold
exactly the reports of the epoch, and the generation is completed exactly if the
epoch is ready. The report that makes it ready is the one that finds it not yet
completed and nothing missing, so this is the step at which it is told.

A generation that is replaced before that takes its number with it. All later ones
have greater numbers, and so have their records.
-/

namespace CheckpointLedger

/-! ## The current generation, by the journal -/

/-- A generation as the journal tells of it. -/
structure Epoch where
  /-- The attempts that are expected. -/
  attempts : List AttemptId
  /-- When it began. -/
  start : Nat
  /-- The reports that were accepted, in order. -/
  reports : List (AttemptId × AttemptMetrics)
  /-- The checkpoints that were named, in order. -/
  restored : List Restored

namespace Epoch

/-- What one more posting makes of the current generation. -/
def next (current : Option Epoch) : Posting → Option Epoch
  | .began attempts start => some ⟨attempts, start, [], []⟩
  | .measured attempt metrics =>
    current.map fun e => { e with reports := e.reports ++ [(attempt, metrics)] }
  | .restored id properties path stateSize =>
    current.map fun e =>
      { e with restored := e.restored ++ [⟨id, properties, e.start, path, stateSize⟩] }
  | _ => current

/-- Every expected attempt reported, and the checkpoint is known. -/
def Ready (e : Epoch) : Prop :=
  (∀ a ∈ e.attempts, a ∈ e.reports.map Prod.fst) ∧ e.restored ≠ []

end Epoch

/-- Whether this begins a generation. -/
def Posting.isBegan : Posting → Bool
  | began _ _ => true
  | _ => false

namespace Journal

/-- The current generation, if one began. -/
def epoch? (j : Journal) : Option Epoch := j.foldl Epoch.next none

/-- How many generations began. -/
def generations (j : Journal) : Nat := j.countP Posting.isBegan

/-- There is a current generation, and it is ready. -/
def Ready (j : Journal) : Prop := ∃ e, j.epoch? = some e ∧ e.Ready

theorem epoch?_append (j k : Journal) : epoch? (j ++ k) = k.foldl Epoch.next j.epoch? :=
  List.foldl_append

theorem generations_append (j k : Journal) :
    generations (j ++ k) = j.generations + k.generations := List.countP_append

theorem epoch?_began (j : Journal) (attempts : List AttemptId) (start : Nat) :
    epoch? (j ++ [.began attempts start]) = some ⟨attempts, start, [], []⟩ := epoch?_append j _

/-- A generation that just began is not ready, even without attempts. -/
theorem not_ready_began (j : Journal) (attempts : List AttemptId) (start : Nat) :
    ¬ Ready (j ++ [.began attempts start]) := by
  rintro ⟨e, he, _, hnamed⟩
  rw [epoch?_began] at he
  rw [← Option.some.inj he] at hnamed
  exact hnamed rfl

end Journal

/-! ## Records of complete generations -/

/-- The span that tells of a complete generation, if it is one. -/
def Effect.initializationSpan? : Effect → Option Span
  | span s _ => if s.name = "JobInitialization" then some s else none
  | _ => none

/-- The spans that tell of complete generations. -/
def initializationSpans (effects : List Effect) : List Span :=
  effects.filterMap Effect.initializationSpan?

/-- Attributes do not rename a span. -/
theorem Initialization.span_name (i : Initialization) (scope : String) :
    (i.span scope).name = "JobInitialization" := by
  rw [span_eq]

theorem initializationSpans_span (i : Initialization) (scope : String) (seen : List Value) :
    initializationSpans [.span (i.span scope) seen] = [i.span scope] := by
  refine List.filterMap_cons_some ?_
  rw [Effect.initializationSpan?, if_pos (i.span_name scope)]

theorem initializationSpans_outward {α : Type} (s : Step α) :
    initializationSpans s.outward = initializationSpans s.effects := by
  unfold initializationSpans Step.outward
  rw [List.filterMap_filter]
  congr 1
  funext e
  cases e <;> rfl

/--
The record that a step gave of a generation: the latest one, if the step told of
one at all.
-/
def Step.initialization? {α : Type} (s : Step α) : Option Initialization :=
  if initializationSpans s.effects = [] then none else s.ledger.latestInitialization

namespace Ledger

/-- The records that were given while a list of operations was done. -/
def initializations (l : Ledger) (ops : List Operation) : List Initialization :=
  (l.run ops).filterMap Step.initialization?

theorem initializations_concat (l : Ledger) (ops : List Operation) (o : Operation) :
    l.initializations (ops ++ [o]) =
      l.initializations ops ++ ((l.after ops).perform o).initialization?.toList := by
  rw [initializations, run_concat, Journal.filterMap_concat]
  rfl

end Ledger

/-! ## A generation follows its epoch -/

namespace Generation

/-- Nobody is missing if no place is empty. -/
theorem missing_eq_zero_iff (g : Generation) :
    g.missing = 0 ↔ ∀ a, g.attempts.find? a ≠ some none := by
  rw [missing, List.countP_eq_zero]
  constructor
  · intro h a ha
    have hmem := (OrderedMap.find?_eq_some_iff g.attempts a none).mp ha
    exact h none (List.mem_map.mpr ⟨_, hmem, rfl⟩) rfl
  · intro h m hm
    obtain ⟨⟨a, m⟩, hmem, rfl⟩ := List.mem_map.mp hm
    have hfound := (OrderedMap.find?_eq_some_iff g.attempts a m).mpr hmem
    cases m with
    | none => exact absurd hfound (h a)
    | some metrics => exact Bool.false_ne_true

/-- The places of a generation hold what the journal knows of it. -/
structure Follows (e : Epoch) (g : Generation) : Prop where
  /-- They began together. -/
  start : g.start = e.start
  /-- There is a place for every expected attempt, and for no other. -/
  expected : ∀ a, (∃ m, g.attempts.find? a = some m) ↔ a ∈ e.attempts
  /-- The places hold the reports that were accepted. -/
  reports : ∀ a m, g.attempts.find? a = some (some m) ↔ (a, m) ∈ e.reports
  /-- The checkpoint is the one that was named last. -/
  restored : g.restored = e.restored.getLast?

theorem follows_new (number start : Nat) (attempts : List AttemptId) :
    Follows ⟨attempts, start, [], []⟩ (.new number start attempts) := by
  have hfind : ∀ a, (Generation.new number start attempts).attempts.find? a =
      if a ∈ attempts then some none else none := by
    intro a
    show (OrderedMap.empty.insertAll (attempts.map (·, none))).find? a = _
    rw [OrderedMap.find?_insertAll_const]
    rfl
  refine ⟨rfl, fun a => ?_, fun a m => ?_, rfl⟩
  · rw [hfind]
    by_cases ha : a ∈ attempts
    · rw [if_pos ha]
      exact ⟨fun _ => ha, fun _ => ⟨none, rfl⟩⟩
    · rw [if_neg ha]
      exact ⟨fun ⟨m, hm⟩ => absurd hm (by simp), fun h => absurd h ha⟩
  · rw [hfind]
    by_cases ha : a ∈ attempts
    · simp [ha]
    · simp [ha]

/-- A report that is awaited fills its place. -/
theorem Follows.record {e : Epoch} {g : Generation} (h : Follows e g) {attempt : AttemptId}
    (ha : g.awaits attempt = true) (metrics : AttemptMetrics) :
    Follows { e with reports := e.reports ++ [(attempt, metrics)] } (g.record attempt metrics) := by
  have hempty : g.attempts.find? attempt = some none := by
    rw [awaits, Bool.and_eq_true] at ha
    exact beq_iff_eq.mp ha.2
  have hfind : ∀ a, (g.record attempt metrics).attempts.find? a =
      if a = attempt then some (some metrics) else g.attempts.find? a :=
    fun a => OrderedMap.find?_insert g.attempts attempt a (some metrics)
  refine ⟨h.start, fun a => ?_, fun a m => ?_, h.restored⟩
  · rw [hfind]
    by_cases hat : a = attempt
    · rw [if_pos hat, hat]
      exact ⟨fun _ => (h.expected attempt).mp ⟨none, hempty⟩, fun _ => ⟨_, rfl⟩⟩
    · rw [if_neg hat]
      exact h.expected a
  · -- only the place of this attempt is filled, and it was empty before
    rw [hfind, List.mem_append, List.mem_singleton]
    by_cases hat : a = attempt
    · have hfirst : (a, m) ∉ e.reports := by
        intro hmem
        have := (h.reports a m).mpr hmem
        rw [hat, hempty] at this
        simp at this
      rw [if_pos hat, hat]
      simp only [Option.some.injEq, Prod.mk.injEq, true_and]
      rw [hat] at hfirst
      exact ⟨fun hm => .inr hm.symm, fun hm => (hm.resolve_left hfirst).symm⟩
    · rw [if_neg hat, h.reports a m]
      exact ⟨.inl, fun hm => hm.resolve_right (fun heq => hat (Prod.mk.inj heq).1)⟩

/-- Naming a checkpoint replaces the one before. -/
theorem Follows.attach {e : Epoch} {g : Generation} (h : Follows e g) (r : Restored) :
    Follows { e with restored := e.restored ++ [r] } (g.attach r) where
  start := h.start
  expected := h.expected
  reports := h.reports
  restored := by
    rw [List.getLast?_concat]
    rfl

/-- **Nothing is missing exactly if the epoch is ready.** -/
theorem Follows.known_iff {e : Epoch} {g : Generation} (h : Follows e g) :
    (g.missing = 0 ∧ g.restored.isSome) ↔ e.Ready := by
  have hreported : g.missing = 0 ↔ ∀ a ∈ e.attempts, a ∈ e.reports.map Prod.fst := by
    rw [missing_eq_zero_iff]
    constructor
    · intro hfull a ha
      obtain ⟨m, hm⟩ := (h.expected a).mpr ha
      cases m with
      | none => exact absurd hm (hfull a)
      | some metrics => exact List.mem_map.mpr ⟨(a, metrics), (h.reports a metrics).mp hm, rfl⟩
    · intro hall a ha
      obtain ⟨⟨b, m⟩, hmem, rfl⟩ := List.mem_map.mp (hall a ((h.expected a).mp ⟨none, ha⟩))
      have := (h.reports b m).mpr hmem
      rw [ha] at this
      simp at this
  have hnamed : g.restored.isSome ↔ e.restored ≠ [] := by
    rw [h.restored, List.getLast?_isSome]
  rw [hreported, hnamed]
  rfl

/-- What it takes for a generation to complete, and what comes of it. -/
theorem complete?_cases (g : Generation) :
    (g.complete? = none ∧ (g.completed = true ∨ ¬ (g.missing = 0 ∧ g.restored.isSome))) ∨
    (∃ r, g.restored = some r ∧ g.missing = 0 ∧ g.completed = false ∧
      g.complete? = some (g.consolidate r, { g with completed := true })) := by
  unfold complete?
  by_cases hdone : g.completed = true
  · rw [if_pos (by simp [hdone])]
    exact .inl ⟨rfl, .inl hdone⟩
  · by_cases hmissing : g.missing = 0
    · rw [if_neg (by simp [hdone, hmissing])]
      cases hr : g.restored with
      | none => exact .inl ⟨rfl, .inr (by simp)⟩
      | some r => exact .inr ⟨r, rfl, hmissing, Bool.eq_false_iff.mpr hdone, rfl⟩
    · rw [if_pos (by simp [hmissing])]
      exact .inl ⟨rfl, .inr (fun h => hmissing h.1)⟩

end Generation

namespace Ledger

/-! ## What a turn does to the restores -/

/-- The books of two ledgers agree as far as they are about restores. -/
structure SameRestores (l l' : Ledger) : Prop where
  /-- The same generation is the current one. -/
  generation : l'.generation = l.generation
  /-- There were as many. -/
  generations : l'.generations = l.generations
  /-- The same was complete last. -/
  latestInitialization : l'.latestInitialization = l.latestInitialization

/-- The current generation is told something: from `g` and its epoch to `g'` and the next. -/
structure Informed (p : Posting) (g g' : Generation) : Prop where
  /-- It stays the same generation. -/
  number : g'.number = g.number
  /-- It is as complete as it was. -/
  completed : g'.completed = g.completed
  /-- It goes on following its epoch, and what was ready stays so. -/
  follows : ∀ e, g.Follows e → ∃ e', Epoch.next (some e) p = some e' ∧ g'.Follows e' ∧
    (e.Ready → e'.Ready)

theorem informed_record {g : Generation} {attempt : AttemptId} (h : g.awaits attempt = true)
    (metrics : AttemptMetrics) :
    Informed (.measured attempt metrics) g (g.record attempt metrics) where
  number := rfl
  completed := rfl
  follows := by
    intro e he
    refine ⟨_, rfl, he.record h metrics, fun hready => ⟨fun a ha => ?_, hready.2⟩⟩
    rw [List.map_append]
    exact List.mem_append_left _ (hready.1 a ha)

theorem informed_attach (g : Generation) (id : Nat) (properties : Properties)
    (path : Option String) (stateSize : Nat) :
    Informed (.restored id properties path stateSize) g
      (g.attach ⟨id, properties, g.start, path, stateSize⟩) where
  number := rfl
  completed := rfl
  follows := by
    intro e he
    refine ⟨_, rfl, he.start ▸ he.attach _, fun hready => ⟨hready.1, ?_⟩⟩
    exact List.append_ne_nil_of_left_ne_nil hready.2 _

/--
**A turn begins a generation, informs the current one, or has nothing to do with
them.** In the last case nothing of the kind is told either.
-/
theorem Turn.restores {l l' : Ledger} {p : Option Posting} {effects : List Effect}
    (h : Turn l p effects l') :
    ((∀ e, p.toList.foldl Epoch.next e = e) ∧ Journal.generations p.toList = 0 ∧
      initializationSpans effects = [] ∧ SameRestores l l') ∨
    (∃ attempts start, p = some (.began attempts start) ∧ effects = [] ∧
      l' = (l.beginInitialization attempts start).ledger) ∨
    (∃ (q : Posting) (g g' : Generation) (l₁ : Ledger), p = some q ∧ q.isBegan = false ∧
      l.generation = some g ∧ Informed q g g' ∧ SameRestores l l₁ ∧
      effects = announceSettled (l₁.settle g') ∧ l' = (l₁.settle g').1) := by
  cases h with
  | quiet _ => exact .inl ⟨fun _ => rfl, rfl, rfl, rfl, rfl, rfl⟩
  | registered _ => exact .inl ⟨fun _ => rfl, rfl, rfl, rfl, rfl, rfl⟩
  | @concluded c _ _ =>
    refine .inl ⟨fun _ => rfl, rfl, ?_, ?_⟩
    · -- the span of a checkpoint has another name
      cases c <;> rfl
    · cases c <;> exact ⟨rfl, rfl, rfl⟩
  | untriggered hl => exact .inl ⟨fun _ => rfl, rfl, rfl, by rw [hl]; exact ⟨rfl, rfl, rfl⟩⟩
  | began => exact .inr (.inl ⟨_, _, rfl, rfl, rfl⟩)
  | measured hg h =>
    exact .inr (.inr ⟨_, _, _, l.touch, rfl, rfl, hg, informed_record h _, ⟨rfl, rfl, rfl⟩, rfl,
      rfl⟩)
  | restored hg hr hl =>
    refine .inr (.inr ⟨_, _, _, _, rfl, rfl, hg, hr ▸ informed_attach _ _ _ _ _, ?_, rfl, rfl⟩)
    rw [hl]
    exact ⟨rfl, rfl, rfl⟩

/-! ## The invariant -/

/-- What the current generation has to do with the journal. -/
structure Restoring (j : Journal) (l : Ledger) : Prop where
  /-- Generations are counted. -/
  generations : l.generations = j.generations
  /-- Before the first there is none in the journal either. -/
  none : l.generation = none → j.epoch? = none
  /-- The current one has the last number, follows its epoch, and is complete if that is ready. -/
  some : ∀ g, l.generation = some g → g.number = l.generations ∧
    ∃ e, j.epoch? = some e ∧ g.Follows e ∧ (g.completed = true ↔ e.Ready)

theorem restoring_new (config : Config) : Restoring [] (new config) where
  generations := rfl
  none := fun _ => rfl
  some := by intro g h; exact absurd h (by simp [new])

theorem Restoring.completed_iff {j : Journal} {l : Ledger} (h : Restoring j l) {g : Generation}
    (hg : l.generation = Option.some g) : g.completed = true ↔ j.Ready := by
  obtain ⟨_, e, he, _, hiff⟩ := h.some g hg
  rw [hiff]
  constructor
  · exact fun hready => ⟨e, he, hready⟩
  · rintro ⟨e', he', hready⟩
    rw [he] at he'
    exact Option.some.inj he' ▸ hready

/-- What was told during a turn: nothing, or the generation that it made ready. -/
structure Told (j : Journal) (l : Ledger) (p : Option Posting) (effects : List Effect)
    (l' : Ledger) (i : Option Initialization) : Prop where
  /-- It is told with one span. -/
  spans : initializationSpans effects = i.toList.map (·.span scope)
  /-- It is the latest from then on. -/
  latest : l'.latestInitialization = i.or l.latestInitialization
  /-- It is the current generation. -/
  number : ∀ r ∈ i, r.generation = l.generations
  /-- Its record is put together from what it has come to know. -/
  record : ∀ r ∈ i, ∃ g named, l'.generation = some g ∧ g.completed = true ∧
    g.restored = some named ∧ r = g.consolidate named
  /-- It was not ready before, and is now. -/
  ready : i.isSome ↔ ¬ j.Ready ∧ Journal.Ready (j ++ p.toList)
  /-- If something is not ready any more, the next has begun. -/
  next : l.generations ≤ l'.generations ∧
    (j.Ready → ¬ Journal.Ready (j ++ p.toList) → l.generations < l'.generations)

theorem told_nothing {j : Journal} {l l' : Ledger} {p : Option Posting} {effects : List Effect}
    (hspans : initializationSpans effects = [])
    (hlatest : l'.latestInitialization = l.latestInitialization)
    (hready : Journal.Ready (j ++ p.toList) → j.Ready)
    (hnext : l.generations ≤ l'.generations ∧
      (j.Ready → ¬ Journal.Ready (j ++ p.toList) → l.generations < l'.generations)) :
    Told j l p effects l' none where
  spans := hspans
  latest := hlatest
  number := by intro r hr; exact absurd hr (by simp)
  record := by intro r hr; exact absurd hr (by simp)
  ready := ⟨fun h => absurd h (by simp), fun h => absurd (hready h.2) h.1⟩
  next := hnext

theorem restoring_beside {j : Journal} {l l' : Ledger} {p : Option Posting}
    {effects : List Effect} (h : Restoring j l)
    (hnext : ∀ e, p.toList.foldl Epoch.next e = e) (hnone : Journal.generations p.toList = 0)
    (hspans : initializationSpans effects = []) (hsame : SameRestores l l') :
    Restoring (j ++ p.toList) l' ∧ Told j l p effects l' none := by
  have hepoch : Journal.epoch? (j ++ p.toList) = j.epoch? := by
    rw [Journal.epoch?_append, hnext]
  have hready : Journal.Ready (j ++ p.toList) ↔ j.Ready := by
    rw [Journal.Ready, hepoch]
    rfl
  refine ⟨⟨?_, ?_, ?_⟩, told_nothing hspans hsame.latestInitialization hready.mp ?_⟩
  · rw [hsame.generations, Journal.generations_append, hnone]
    exact h.generations
  · rw [hsame.generation, hepoch]
    exact h.none
  · rw [hsame.generation, hsame.generations, hepoch]
    exact h.some
  · rw [hready, hsame.generations]
    exact ⟨Nat.le_refl _, fun hr hn => absurd hr hn⟩

theorem restoring_begin {j : Journal} {l : Ledger} (h : Restoring j l)
    (attempts : List AttemptId) (start : Nat) :
    Restoring (j ++ [.began attempts start]) (l.beginInitialization attempts start).ledger ∧
      Told j l (some (.began attempts start)) []
        (l.beginInitialization attempts start).ledger none := by
  have hnever := j.not_ready_began attempts start
  refine ⟨⟨?_, ?_, ?_⟩, told_nothing rfl rfl (fun hr => absurd hr hnever) ?_⟩
  · rw [Journal.generations_append]
    exact congrArg (· + 1) h.generations
  · intro hg
    exact absurd hg (by simp [beginInitialization, touch])
  · intro g hg
    obtain rfl : Generation.new (l.generations + 1) start attempts = g := Option.some.inj hg
    refine ⟨rfl, _, j.epoch?_began attempts start, Generation.follows_new _ _ _, ?_⟩
    exact ⟨fun hc => absurd hc Bool.false_ne_true, fun hr => absurd rfl hr.2⟩
  · exact ⟨Nat.le_succ _, fun _ _ => Nat.lt_succ_self _⟩

/-- Settling a generation completes it or not. -/
theorem settle_cases (l : Ledger) (g : Generation) :
    ((g.completed = true ∨ ¬ (g.missing = 0 ∧ g.restored.isSome)) ∧
      l.settle g = ({ l with generation := some g }, none)) ∨
    (∃ r, g.restored = some r ∧ g.missing = 0 ∧ g.completed = false ∧
      l.settle g = ({ l with
        generation := some { g with completed := true }
        latestInitialization := some (g.consolidate r) }, some (g.consolidate r))) := by
  unfold settle
  rcases g.complete?_cases with ⟨hnone, hwhy⟩ | ⟨r, hr, hmissing, hopen, hsome⟩
  · rw [hnone]
    exact .inl ⟨hwhy, rfl⟩
  · rw [hsome]
    exact .inr ⟨r, hr, hmissing, hopen, rfl⟩

theorem restoring_inform {j : Journal} {l l₁ : Ledger} (h : Restoring j l) {q : Posting}
    (hq : q.isBegan = false) {g g' : Generation} (hg : l.generation = some g)
    (hinf : Informed q g g') (hsame : SameRestores l l₁) :
    Restoring (j ++ [q]) (l₁.settle g').1 ∧
      Told j l (some q) (announceSettled (l₁.settle g')) (l₁.settle g').1 (l₁.settle g').2 := by
  obtain ⟨hnumber, e, he, hfollows, hiff⟩ := h.some g hg
  obtain ⟨e', hnext, hfollows', hmono⟩ := hinf.follows e hfollows
  have hepoch : Journal.epoch? (j ++ [q]) = some e' := by
    rw [Journal.epoch?_append, he]
    exact hnext
  have hready : Journal.Ready (j ++ [q]) ↔ e'.Ready := by
    rw [Journal.Ready, hepoch]
    exact ⟨fun ⟨d, hd, hr⟩ => Option.some.inj hd ▸ hr, fun hr => ⟨e', rfl, hr⟩⟩
  have hcount : Journal.generations (j ++ [q]) = j.generations := by
    rw [Journal.generations_append, Journal.generations, Journal.generations,
      List.countP_singleton, if_neg (by simp [hq])]
    rfl
  -- being told something does not complete a generation by itself: that is for `settle`
  have hwas : g'.completed = true ↔ j.Ready := by
    rw [hinf.completed]
    exact h.completed_iff hg
  have hstays : j.Ready → Journal.Ready (j ++ [q]) := by
    intro hr
    rw [hready]
    exact hmono (hiff.mp ((h.completed_iff hg).mpr hr))
  have hknown := hfollows'.known_iff
  rcases settle_cases l₁ g' with ⟨hwhy, hsettle⟩ | ⟨r, hr, hmissing, hopen, hsettle⟩
  · -- nothing comes of it: the generation was complete, or something is still missing
    have hdone : g'.completed = true ↔ e'.Ready := by
      constructor
      · exact fun hc => hready.mp (hstays (hwas.mp hc))
      · intro hr
        exact hwhy.resolve_right (fun hmissing => hmissing (hknown.mpr hr))
    rw [hsettle]
    refine ⟨⟨?_, ?_, ?_⟩, told_nothing rfl hsame.latestInitialization ?_ ?_⟩
    · rw [hcount]
      exact hsame.generations.trans h.generations
    · intro hn
      exact absurd hn (by simp)
    · intro d hd
      obtain rfl : g' = d := Option.some.inj hd
      refine ⟨?_, e', hepoch, hfollows', hdone⟩
      rw [hinf.number, hnumber]
      exact hsame.generations.symm
    · exact fun hr => hwas.mp (hdone.mpr (hready.mp hr))
    · exact ⟨Nat.le_of_eq hsame.generations.symm, fun hr hn => absurd (hstays hr) hn⟩
  · -- the last thing that was missing
    have hall : g'.missing = 0 ∧ g'.restored.isSome := ⟨hmissing, by rw [hr]; rfl⟩
    have hnot : ¬ j.Ready := by
      rw [← hwas, hopen]
      exact Bool.false_ne_true
    have hnow : Journal.Ready (j ++ [q]) := hready.mpr (hknown.mp hall)
    rw [hsettle]
    refine ⟨⟨?_, ?_, ?_⟩, ⟨initializationSpans_span _ scope _, rfl, ?_, ?_, ?_, ?_⟩⟩
    · rw [hcount]
      exact hsame.generations.trans h.generations
    · intro hn
      exact absurd hn (by simp)
    · intro d hd
      obtain rfl : { g' with completed := true } = d := Option.some.inj hd
      refine ⟨?_, e', hepoch, ?_, ?_⟩
      · show g'.number = _
        rw [hinf.number, hnumber]
        exact hsame.generations.symm
      · exact ⟨hfollows'.start, hfollows'.expected, hfollows'.reports, hfollows'.restored⟩
      · exact ⟨fun _ => hknown.mp hall, fun _ => rfl⟩
    · intro i hi
      obtain rfl := Option.some.inj hi
      show g'.number = _
      rw [hinf.number, hnumber]
    · intro i hi
      obtain rfl := Option.some.inj hi
      exact ⟨_, r, rfl, rfl, hr, rfl⟩
    · exact ⟨fun _ => ⟨hnot, hnow⟩, fun _ => rfl⟩
    · exact ⟨Nat.le_of_eq hsame.generations.symm, fun hr _ => absurd hr hnot⟩

/-- **Preserved by every turn**, and what each of them tells. -/
theorem restoring_turn {j : Journal} {l l' : Ledger} {p : Option Posting}
    {effects : List Effect} (hturn : Turn l p effects l') (h : Restoring j l) :
    Restoring (j ++ p.toList) l' ∧ ∃ i, Told j l p effects l' i := by
  rcases hturn.restores with ⟨hnext, hnone, hspans, hsame⟩ | ⟨attempts, start, rfl, rfl, rfl⟩ |
    ⟨q, g, g', l₁, rfl, hq, hg, hinf, hsame, rfl, rfl⟩
  · obtain ⟨h1, h2⟩ := restoring_beside h hnext hnone hspans hsame
    exact ⟨h1, _, h2⟩
  · obtain ⟨h1, h2⟩ := restoring_begin h attempts start
    exact ⟨h1, _, h2⟩
  · obtain ⟨h1, h2⟩ := restoring_inform h hq hg hinf hsame
    exact ⟨h1, _, h2⟩

theorem restoring_run (config : Config) (ops : List Operation) :
    Restoring ((new config).journal ops) ((new config).after ops) :=
  journal_induction (motive := Restoring) _ (restoring_new config)
    (fun _ _ _ _ _ hturn h => (restoring_turn hturn h).1) ops

/-- What an operation tells is the record read off its outcome. -/
theorem told_perform {j : Journal} {l : Ledger} (h : Restoring j l) (o : Operation) :
    Told j l (l.posting? o) (l.perform o).effects (l.perform o).ledger
      (l.perform o).initialization? := by
  obtain ⟨_, i, ht⟩ := restoring_turn (turn l o) h
  have hspans : initializationSpans (l.perform o).effects = i.toList.map (·.span scope) := by
    rw [← initializationSpans_outward]
    exact ht.spans
  have hi : (l.perform o).initialization? = i := by
    unfold Step.initialization?
    rw [hspans]
    cases i with
    | none => rfl
    | some r => exact ht.latest
  rw [hi]
  exact ⟨hspans, ht.latest, ht.number, ht.record, ht.ready, ht.next⟩

/-! ## All that was told -/

/-- What the records given so far have to do with the current generation. -/
structure Recorded (j : Journal) (l : Ledger) (given : List Initialization) : Prop where
  /-- Their numbers grow. -/
  increasing : given.Pairwise (fun a b => a.generation < b.generation)
  /-- The last one is kept. -/
  latest : l.latestInitialization = given.getLast?
  /-- There is none of a later generation, nor of the current one before it is ready. -/
  bounded : ∀ i ∈ given, i.generation ≤ l.generations ∧
    (¬ j.Ready → i.generation < l.generations)

theorem Recorded.nothing {j : Journal} {l l' : Ledger} {given : List Initialization}
    {p : Option Posting} {effects : List Effect} (h : Recorded j l given)
    (ht : Told j l p effects l' none) : Recorded (j ++ p.toList) l' given where
  increasing := h.increasing
  latest := ht.latest.trans h.latest
  bounded := by
    intro i hi
    obtain ⟨hle, hlt⟩ := h.bounded i hi
    refine ⟨Nat.le_trans hle ht.next.1, fun hnot => ?_⟩
    -- either the current generation never was ready, or the next one has begun
    by_cases hready : j.Ready
    · exact Nat.lt_of_le_of_lt hle (ht.next.2 hready hnot)
    · exact Nat.lt_of_lt_of_le (hlt hready) ht.next.1

theorem Recorded.told {j : Journal} {l l' : Ledger} {given : List Initialization}
    {p : Option Posting} {effects : List Effect} {r : Initialization} (h : Recorded j l given)
    (ht : Told j l p effects l' (some r)) : Recorded (j ++ p.toList) l' (given ++ [r]) := by
  obtain ⟨hnot, hnow⟩ := ht.ready.mp rfl
  have hnumber : r.generation = l.generations := ht.number r rfl
  refine ⟨?_, ?_, ?_⟩
  · -- the generation was not ready, so everything before is of earlier ones
    refine List.pairwise_append.mpr ⟨h.increasing, List.pairwise_singleton _ _, ?_⟩
    intro i hi d hd
    rw [List.mem_singleton.mp hd, hnumber]
    exact (h.bounded i hi).2 hnot
  · rw [List.getLast?_concat]
    exact ht.latest
  · intro i hi
    refine ⟨Nat.le_trans ?_ ht.next.1, fun hn => absurd hnow hn⟩
    rcases List.mem_append.mp hi with hi | hi
    · exact (h.bounded i hi).1
    · rw [List.mem_singleton.mp hi]
      exact Nat.le_of_eq hnumber

theorem recorded_run (config : Config) (ops : List Operation) :
    Recorded ((new config).journal ops) ((new config).after ops)
      ((new config).initializations ops) := by
  induction ops using List.reverseRecOn with
  | nil => exact ⟨List.Pairwise.nil, rfl, by intro i hi; exact absurd hi List.not_mem_nil⟩
  | append_singleton ops o ih =>
    have ht := told_perform (restoring_run config ops) o
    rw [initializations_concat, journal_concat, after_concat]
    generalize ((new config).after ops).perform o = s at ht ⊢
    cases hi : s.initialization? with
    | none =>
      rw [Option.toList_none, List.append_nil]
      exact ih.nothing (hi ▸ ht)
    | some r => exact ih.told (hi ▸ ht)

/-- The spans of a run are those of its records. -/
theorem initializationSpans_run (config : Config) (ops : List Operation) :
    ((new config).run ops).flatMap (fun s => initializationSpans s.effects) =
      ((new config).initializations ops).map (·.span scope) := by
  induction ops using List.reverseRecOn with
  | nil => rfl
  | append_singleton ops o ih =>
    rw [run_concat, initializations_concat, List.flatMap_append, List.map_append, ih]
    have hspans := (told_perform (restoring_run config ops) o).spans
    rw [List.flatMap_singleton, hspans]

/--
The current generation, if it is replaced before it was complete, is never told.
From then on the numbers in use are greater.
-/
theorem not_told_of_replaced (config : Config) (before : List Operation)
    (attempts : List AttemptId) (start : Nat) (rest : List Operation) {g : Generation}
    (hg : ((new config).after before).generation = some g) (hopen : g.completed = false) :
    let ops := before ++ .beginInitialization attempts start :: rest
    g.number < ((new config).after ops).generations ∧
      ∀ i ∈ (new config).initializations ops, i.generation ≠ g.number := by
  have hrestoring := restoring_run config before
  have hnumber := (hrestoring.some g hg).1
  have hnot : ¬ ((new config).journal before).Ready := by
    rw [← hrestoring.completed_iff hg, hopen]
    exact Bool.false_ne_true
  induction rest using List.reverseRecOn with
  | nil =>
    refine ⟨?_, fun i hi => ?_⟩
    · rw [after_concat, hnumber]
      exact Nat.lt_succ_self _
    · -- beginning the next is not telling of this one
      have hsilent : (((new config).after before).perform
          (.beginInitialization attempts start)).initialization? = none := by
        have ht := told_perform (restoring_run config before) (.beginInitialization attempts start)
        refine Option.not_isSome_iff_eq_none.mp (fun htold => ?_)
        exact Journal.not_ready_began _ _ _ (ht.ready.mp htold).2
      rw [initializations_concat, hsilent, Option.toList_none, List.append_nil] at hi
      have := ((recorded_run config before).bounded i hi).2 hnot
      omega
  | append_singleton rest o ih =>
    have hshape : before ++ Operation.beginInitialization attempts start :: (rest ++ [o]) =
        (before ++ .beginInitialization attempts start :: rest) ++ [o] := by
      rw [List.append_assoc, List.cons_append]
    show _ < ((new config).after _).generations ∧ ∀ i ∈ (new config).initializations _, _
    rw [hshape, after_concat, initializations_concat]
    obtain ⟨hlater, hnever⟩ := ih
    -- whatever is told now is told of the generation in use, which is a later one
    have ht := told_perform
      (restoring_run config (before ++ .beginInitialization attempts start :: rest)) o
    refine ⟨Nat.lt_of_lt_of_le hlater ht.next.1, fun i hi => ?_⟩
    rcases List.mem_append.mp hi with hi | hi
    · exact hnever i hi
    · rw [ht.number i (Option.mem_toList.mp hi)]
      exact Nat.ne_of_gt hlater

/--
**A generation is complete exactly when it is ready, and that is when it is told.**
After any run the flag of the current generation says whether it is ready. An
operation tells of a generation exactly if this was not ready before and is now,
with one span and one record of what is known of it then. Over the whole run the
numbers of the records grow, so no generation is told twice, and the last record is
the one that is kept; a generation replaced before it was complete has none.
-/
theorem generation_told_when_ready (config : Config) (ops : List Operation) :
    let j := (new config).journal ops
    let l := (new config).after ops
    let given := (new config).initializations ops
    (∀ g, l.generation = some g → g.number = j.generations ∧ (g.completed = true ↔ j.Ready)) ∧
    (∀ o, let s := l.perform o
      (s.initialization?.isSome ↔ ¬ j.Ready ∧ ((new config).journal (ops ++ [o])).Ready) ∧
      initializationSpans s.effects = s.initialization?.toList.map (·.span scope) ∧
      s.ledger.latestInitialization = s.initialization?.or l.latestInitialization ∧
      ∀ i ∈ s.initialization?, i.generation = j.generations ∧
        ∃ g named, s.ledger.generation = some g ∧ g.completed = true ∧
          g.restored = some named ∧ i = g.consolidate named) ∧
    given.Pairwise (fun a b => a.generation < b.generation) ∧
    l.latestInitialization = given.getLast? ∧
    ((new config).run ops).flatMap (fun s => initializationSpans s.effects) =
      given.map (·.span scope) ∧
    ∀ before attempts start rest g,
      ops = before ++ .beginInitialization attempts start :: rest →
      ((new config).after before).generation = some g → g.completed = false →
      ∀ i ∈ given, i.generation ≠ g.number := by
  intro j l given
  have hrestoring : Restoring j l := restoring_run config ops
  have hrecorded : Recorded j l given := recorded_run config ops
  refine ⟨fun g hg => ⟨?_, hrestoring.completed_iff hg⟩, fun o => ?_, hrecorded.increasing,
    hrecorded.latest, initializationSpans_run config ops, ?_⟩
  · rw [(hrestoring.some g hg).1, hrestoring.generations]
  · have ht := told_perform hrestoring o
    refine ⟨?_, ht.spans, ht.latest, fun i hi => ⟨?_, ht.record i hi⟩⟩
    · rw [journal_concat]
      exact ht.ready
    · rw [ht.number i hi, hrestoring.generations]
  · intro before attempts start rest g hops hg hopen
    have hnever := (not_told_of_replaced config before attempts start rest hg hopen).2
    rwa [← hops] at hnever

/-- Two generations; the attempt of the first never reports. -/
def replacedRun : List Operation :=
  [.beginInitialization [⟨1, by decide⟩] 0, .beginInitialization [] 5,
   .reportRestored 7 (.checkpoint .never) none 0]

/-- The second generation is told, and not the first. -/
theorem replacedRun_tells_second :
    ((new {}).initializations replacedRun).map (·.generation) = [2] ∧
    ((new {}).after (replacedRun.take 1)).generation = some (.new 1 0 [⟨1, by decide⟩]) ∧
    ∀ i ∈ (new {}).initializations replacedRun, i.generation ≠ 1 :=
  ⟨rfl, rfl, (generation_told_when_ready {} replacedRun).2.2.2.2.2
    (replacedRun.take 1) [] 5 (replacedRun.drop 2) _ rfl rfl rfl⟩

end Ledger

end CheckpointLedger
