import CheckpointLedger.Proofs.Gauges
import CheckpointLedger.Proofs.Totals

/-!
# What is told of a completed checkpoint

A completed checkpoint is told of three times. A span and an event are made of the record that
was reported, and the gauges read the latest record that the ledger keeps. All three pick their
figures by themselves, and cut them by themselves to what can be shown.

They agree because two of them tell of the same record. The span and the event always do. The
gauges do if the checkpoint is the newest of all that completed so far, whichever came first, and
else they go on telling of the one that is (`newest_newestOf`).
-/

namespace CheckpointLedger

/-- The attribute that tells what a gauge reads, if there is one. -/
def Gauge.attribute? : Gauge → Option String
  | completedId => some "checkpointId"
  | fullSize => some "fullSize"
  | checkpointedSize => some "checkpointedSize"
  | metadataSize => some "metadataSize"
  | processedData => some "processedData"
  | persistedData => some "persistedData"
  | _ => none

/-- The names of all attributes of a completed checkpoint. -/
def Completed.attributeNames : List String :=
  ["checkpointId", "checkpointType", "isUnaligned", "checkpointStatus", "fullSize",
   "checkpointedSize", "metadataSize", "processedData", "persistedData"]

theorem Span.attributes_withAttributes (scope name : String) (start stop : Nat) (m : Attributes) :
    (((Span.new scope name).withInterval start stop).withAttributes m).attributes = m :=
  m.ofList_entries

namespace Ledger

variable {l l' : Ledger} {c : Completed}

theorem nodup_attributeNames : Completed.attributeNames.Nodup := by decide

theorem keys_attributesOf (c : Completed) :
    (attributesOf c).keys.Perm Completed.attributeNames := by
  unfold attributesOf
  exact (OrderedMap.entries_ofList_perm (by exact nodup_attributeNames)).map Prod.fst

/-- The gauges for figures of the latest record read the attributes of this record. -/
theorem find?_attribute (h : l.latestCompleted = some c) {g : Gauge} {name : String}
    (hname : g.attribute? = some name) :
    (attributesOf c).find? name = some (Gauge.read (some l) g) := by
  have hread (figure : Completed → Nat) :
      Gauge.ofLatest (some l) figure = Value.ofNat (figure c) := by
    show Gauge.long (-1) (l.latestCompleted.map figure) = _
    rw [h]
    rfl
  unfold attributesOf
  refine (OrderedMap.find?_ofList (by exact nodup_attributeNames) _ _).mpr ?_
  cases g
  case completedId | fullSize | checkpointedSize | metadataSize | processedData | persistedData =>
    obtain rfl := Option.some.inj hname
    rw [Gauge.read, hread]
    simp
  all_goals cases hname

/-- While the latest record is the same, so is what the gauges read of it. -/
theorem read_of_latestCompleted_eq (h : l'.latestCompleted = l.latestCompleted) :
    ∀ g ∈ Gauge.externalPath :: Gauge.ofCompleted,
      Gauge.read (some l') g = Gauge.read (some l) g := by
  intro g hg
  have hfigure (figure : Completed → Nat) :
      Gauge.ofLatest (some l') figure = Gauge.ofLatest (some l) figure := by
    show Gauge.long (-1) (l'.latestCompleted.map figure) =
      Gauge.long (-1) (l.latestCompleted.map figure)
    rw [h]
  cases g with
  | total | inProgress | completed | failed | restoreTime => simp [Gauge.ofCompleted] at hg
  | externalPath =>
    show Value.text ((l'.latestCompleted.bind (·.pointer)).getD "n/a") =
      .text ((l.latestCompleted.bind (·.pointer)).getD "n/a")
    rw [h]
  | _ => exact hfigure _

/-- What an accepted completion leaves and what is told of it. -/
theorem told_of_done (h : (l.perform (.reportCompleted c)).answer = .done) :
    (l.perform (.reportCompleted c)).ledger = l.bookCompleted c ∧
    (l.perform (.reportCompleted c)).outward =
      announce (.completed c) (l.bookCompleted c).seen := by
  have hposted : l.posting? (.reportCompleted c) = some (.concluded (.completed c)) := by
    rw [posting?, h]
    rfl
  have hturn := turn_of_posted hposted
  generalize (l.perform (.reportCompleted c)).ledger = after at hturn ⊢
  generalize (l.perform (.reportCompleted c)).outward = told at hturn ⊢
  cases hturn with
  | concluded _ => exact ⟨rfl, rfl⟩

/--
**Span, event and gauges tell the same of a completed checkpoint.** Whenever a completion is
accepted, a span and an event are emitted with the same attributes, which have nine names. The span
goes from the trigger to the last acknowledgement, or to the trigger if there was none, and the
event is seen where the span ends. If the checkpoint has a greater id than all that completed
before, the gauge for each figure reads the value of the attribute for it, the gauge for the time
reads where the span ends, and the one for the duration how long it is, or zero if it ends before
it starts, both cut to what can be shown. Else no gauge for the latest completed checkpoint
changes.
-/
theorem completion_told_alike (config : Config) (ops : List Operation) {c : Completed}
    (h : (((new config).after ops).perform (.reportCompleted c)).answer = .done) :
    let l := (new config).after ops
    let step := l.perform (.reportCompleted c)
    ∃ s e seen, step.outward = [.span s seen, .event e seen, .completed seen] ∧
      s.attributes = e.attributes ∧ s.attributes.keys.Perm Completed.attributeNames ∧
      s.start = c.trigger ∧
      s.stop = (c.acknowledged.latest.map (·.ackTime)).getD c.trigger ∧
      (∀ groups, c.acknowledged = .ofGroups groups →
        s.stop = ((groups.flatMap (·.reports)).map (·.ackTime)).max?.getD c.trigger) ∧
      e.observed = s.stop ∧
      ((∀ d ∈ ((new config).journal ops).completions, d.id < c.id) →
        (∀ g name, g.attribute? = some name →
          s.attributes.find? name = some (Gauge.read (some step.ledger) g)) ∧
        Gauge.read (some step.ledger) .completedTime = .long (min s.stop longMax) ∧
        Gauge.read (some step.ledger) .duration =
          .long (min (max (s.stop - s.start) 0) longMax)) ∧
      (¬ (∀ d ∈ ((new config).journal ops).completions, d.id < c.id) →
        ∀ g ∈ Gauge.externalPath :: Gauge.ofCompleted,
          Gauge.read (some step.ledger) g = Gauge.read (some l) g) := by
  intro l step
  obtain ⟨hledger, houtward⟩ := told_of_done h
  have hlatest := (figured_run config ops).latest
  obtain ⟨hnew, hsame⟩ :=
    @newest_newestOf Completed (·.id) ((new config).journal ops).completions c
  rw [← hlatest] at hnew hsame
  have hattributes : (spanOf c).attributes = attributesOf c := Span.attributes_withAttributes ..
  have hstop : (spanOf c).stop = c.latestAck := rfl
  -- both gauges and spans are about this record, if it is the newest
  rw [show step.ledger = l.bookCompleted c from hledger]
  refine ⟨spanOf c, eventOf c, _, houtward, hattributes, hattributes ▸ keys_attributesOf c, rfl,
    c.latestAck_eq, fun groups hgroups => ?_, rfl, fun hexceeds => ?_, fun hnot => ?_⟩
  · rw [hstop, c.latestAck_eq, hgroups, (Report.last_ofGroups groups).max?_map (fun _ _ hle => hle)]
  · have hlatest : (l.bookCompleted c).latestCompleted = some c := hnew hexceeds
    refine ⟨fun g name hname => hattributes ▸ find?_attribute hlatest hname, ?_, ?_⟩
    · show Gauge.long (-1) ((l.bookCompleted c).latestCompleted.map (·.latestAck)) = _
      rw [hlatest, hstop]
      show Value.long (min c.latestAck longMax : Nat) = _
      refine congrArg Value.long ?_
      omega
    · show Gauge.long (-1) ((l.bookCompleted c).latestCompleted.map (·.duration)) = _
      rw [hlatest]
      show Value.long (min (c.latestAck - c.trigger) longMax : Nat) =
        .long (min (max ((c.latestAck : Int) - c.trigger) 0) longMax)
      refine congrArg Value.long ?_
      omega
  · exact read_of_latestCompleted_eq (hsame hnot)

/-- It acknowledged before its trigger, and its figures are more than can be shown. -/
def hugeCompletion : Completed where
  id := 5
  trigger := 50
  properties := .checkpoint .never
  total := 1
  acknowledged := .ofGroups [⟨⟨81, by decide⟩, 1, [(Report.new 0 40).withSizes 7 (longMax + 2)]⟩]
  pointer := some "p"
  metadataSize := wordMax

/-- Two checkpoints are in progress, of which the second completes first. -/
def overtakingRun : List Operation := [.registerBare 3, .registerBare 5]

/-- The second is told of with all figures cut; the first then changes no gauge. -/
theorem overtakingRun_told :
    let l := (new {}).after overtakingRun
    let step := l.perform (.reportCompleted hugeCompletion)
    (∃ s seen, .span s seen ∈ step.outward ∧ s.start = 50 ∧ s.stop = 40 ∧
      s.attributes.find? "checkpointedSize" = some (.long 7) ∧
      s.attributes.find? "fullSize" = some (.long longMax) ∧
      s.attributes.find? "metadataSize" = some (.long longMax)) ∧
    Gauge.read (some step.ledger) .completedTime = .long 40 ∧
    Gauge.read (some step.ledger) .duration = .long 0 ∧
    ∀ g ∈ Gauge.externalPath :: Gauge.ofCompleted,
      Gauge.read (some (step.ledger.perform (.reportCompleted (.bare 3))).ledger) g =
        Gauge.read (some step.ledger) g := by
  intro l step
  obtain ⟨s, e, seen, houtward, -, -, hstart, hstop, -, -, hnewest, -⟩ :=
    completion_told_alike {} overtakingRun (c := hugeCompletion) rfl
  obtain ⟨-, -, -, -, -, -, -, -, -, -, -, hlater⟩ :=
    completion_told_alike {} (overtakingRun ++ [.reportCompleted hugeCompletion]) (c := .bare 3) rfl
  have hstop' : s.stop = 40 := hstop.trans rfl
  obtain ⟨hattributes, htime, hduration⟩ := hnewest (by decide)
  refine ⟨⟨s, seen, houtward ▸ List.mem_cons_self, hstart.trans rfl, hstop',
    (hattributes .checkpointedSize _ rfl).trans rfl, (hattributes .fullSize _ rfl).trans rfl,
    (hattributes .metadataSize _ rfl).trans rfl⟩, ?_, ?_, hlater (by decide)⟩
  · rw [htime, hstop']
    rfl
  · rw [hduration, hstop', hstart]
    rfl

end Ledger

end CheckpointLedger
