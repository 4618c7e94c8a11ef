import CheckpointLedger.Config
import CheckpointLedger.Counts
import CheckpointLedger.Initialization
import CheckpointLedger.Proofs.Identifiers
import CheckpointLedger.Summary

/-!
# Every type is read as it was written

The types that have a JSON form, each with what fits: numbers that fit into 64 bits, and
averages that are not there. For a record it is enough to go through its fields, for a choice
through its cases.
-/

namespace CheckpointLedger

/-! ## Choices -/

instance : LawfulNamed SavepointFormat := ⟨fun a => by cases a <;> rfl⟩

instance : LawfulNamed Retention := ⟨fun a => by cases a <;> rfl⟩

instance : LawfulNamed Status := ⟨fun a => by cases a <;> rfl⟩

instance : LawfulNamed InitializationStatus := ⟨fun a => by cases a <;> rfl⟩

/-- The one choice of which a case carries something. -/
instance : Lawful Kind where
  Fits _ := True
  wellFormed
    | .checkpoint => .string _
    | .savepoint format => .object (fun m hm => by
        rw [List.mem_singleton.mp hm]
        exact wellFormed format)
  decode_encode
    | .checkpoint, _ => rfl
    | .savepoint format, _ => congrArg (Option.map Kind.savepoint) (decode_encode format trivial)

@[simp]
theorem fits_kind (k : Kind) : Fits k := trivial

@[simp]
theorem fits_identifier {kind : IdentifierKind} (id : Identifier kind) : Fits id := trivial

/-! ## Records -/

instance : LawfulRecord Config where
  Fits c := Fits c.historySize
  nodup := by decide
  length_toValues _ := rfl
  wellFormed c := by simp [Record.toValues]
  ofValues_toValues c h := by
    simp [Record.ofValues, Record.toValues, Field.defaulted_encode _ h]

instance : LawfulRecord Properties where
  Fits _ := True
  nodup := by decide
  length_toValues _ := rfl
  wellFormed p := by simp [Record.toValues]
  ofValues_toValues p h := by
    simp [Record.ofValues, Record.toValues, Field.required_encode, *]

@[simp]
theorem fits_properties (p : Properties) : Fits p := trivial

instance : LawfulRecord Counts where
  Fits c := Fits c.restored ∧ Fits c.total ∧ Fits c.inProgress ∧ Fits c.completed ∧ Fits c.failed
  nodup := by decide
  length_toValues _ := rfl
  wellFormed c := by simp [Record.toValues]
  ofValues_toValues c h := by
    obtain ⟨h1, h2, h3, h4, h5⟩ := h
    simp [Record.ofValues, Record.toValues, Field.required_encode, *]

instance : LawfulRecord Report where
  Fits r :=
    Fits r.subtask ∧ Fits r.ackTime ∧ Fits r.checkpointedSize ∧ Fits r.stateSize ∧
      Fits r.syncDuration ∧ Fits r.asyncDuration ∧ Fits r.processedData ∧ Fits r.persistedData ∧
      Fits r.alignmentDuration ∧ Fits r.startDelay
  nodup := by decide
  length_toValues _ := rfl
  wellFormed r := by simp [Record.toValues]
  ofValues_toValues r h := by
    obtain ⟨h1, h2, h3, h4, h5, h6, h7, h8, h9, h10⟩ := h
    simp [Record.ofValues, Record.toValues, Field.required_encode, *]

instance : LawfulRecord GroupReports where
  Fits g := Fits g.parallelism ∧ Fits g.reports
  nodup := by decide
  length_toValues _ := rfl
  wellFormed g := by simp [Record.toValues]
  ofValues_toValues g h := by
    obtain ⟨h1, h2⟩ := h
    simp [Record.ofValues, Record.toValues, Field.required_encode, *]

instance : LawfulRecord Restored where
  Fits r := Fits r.id ∧ Fits r.time ∧ Fits r.stateSize
  nodup := by decide
  length_toValues _ := rfl
  wellFormed r := by simp [Record.toValues]
  ofValues_toValues r h := by
    obtain ⟨h1, h2, h3⟩ := h
    simp [Record.ofValues, Record.toValues, Field.required_encode, Field.optional_encode, *]

instance : LawfulRecord AttemptMetrics where
  Fits m := Fits m.start ∧ Fits m.stop ∧ Fits m.durations
  nodup := by decide
  length_toValues _ := rfl
  wellFormed m := by simp [Record.toValues]
  ofValues_toValues m h := by
    obtain ⟨h1, h2, h3⟩ := h
    simp [Record.ofValues, Record.toValues, Field.required_encode, *]

instance : LawfulRecord DurationTotals where
  Fits t := Fits t.max ∧ Fits t.sum
  nodup := by decide
  length_toValues _ := rfl
  wellFormed t := by simp [Record.toValues]
  ofValues_toValues t h := by
    obtain ⟨h1, h2⟩ := h
    simp [Record.ofValues, Record.toValues, Field.required_encode, *]

instance : LawfulRecord Initialization where
  Fits i :=
    Fits i.generation ∧ Fits i.checkpoint ∧ Fits i.stateSize ∧ Fits i.start ∧ Fits i.stop ∧
      Fits i.attempts ∧ Fits i.durations
  nodup := by decide
  length_toValues _ := rfl
  wellFormed i := by simp [Record.toValues]
  ofValues_toValues i h := by
    obtain ⟨h1, h2, h3, h4, h5, h6, h7⟩ := h
    simp [Record.ofValues, Record.toValues, Field.required_encode, *]

instance : LawfulRecord MetricView where
  Fits v := Fits v.count ∧ Fits v.min ∧ Fits v.max ∧ Fits v.sum ∧ v.average = none
  nodup := by decide
  length_toValues _ := rfl
  wellFormed v := by simp [Record.toValues]
  ofValues_toValues v h := by
    obtain ⟨count, min, max, sum, average⟩ := v
    obtain ⟨h1, h2, h3, h4, rfl⟩ := h
    simp [Record.ofValues, Record.toValues, Field.required_encode, Field.optional_encode, *]

instance : LawfulRecord SummaryView where
  Fits v :=
    Fits v.stateSize ∧ Fits v.checkpointedSize ∧ Fits v.duration ∧ Fits v.processedData ∧
      Fits v.persistedData
  nodup := by decide
  length_toValues _ := rfl
  wellFormed v := by simp [Record.toValues]
  ofValues_toValues v h := by
    obtain ⟨h1, h2, h3, h4, h5⟩ := h
    simp [Record.ofValues, Record.toValues, Field.required_encode, *]

/-! ## All types -/

/--
**Decoding undoes encoding for every type that has a JSON form.** The text of a value is read
as this very value: of a configuration, a savepoint format, a kind, a retention policy, the
properties of a checkpoint, a status, the counts, the report of a subtask, those of a group in
whatever order, a checkpoint that was restored, how an initialization ended, the metrics of an
attempt, the totals of a duration, a generation, an identifier of either kind, and of a
metric and the summary, where averages are absent. Numbers go up to the greatest of
64 bits, there is no text that does not fit, as a path or as a name, and of a list or a map
nothing is asked but that all that is in it fits.
-/
theorem every_type_faithful :
    (∀ n : Nat, Fits n ↔ n ≤ wordMax) ∧ (∀ s : String, Fits s) ∧
    (∀ reports : List Report, Fits reports ↔ ∀ r ∈ reports, Fits r) ∧
    (∀ durations : Durations, Fits durations ↔ ∀ d ∈ durations.entries, Fits d.2) ∧
    Codec.Faithful Config ∧ Codec.Faithful SavepointFormat ∧ Codec.Faithful Kind ∧
    Codec.Faithful Retention ∧ Codec.Faithful Properties ∧ Codec.Faithful Status ∧
    Codec.Faithful Counts ∧ Codec.Faithful Report ∧ Codec.Faithful GroupReports ∧
    Codec.Faithful Restored ∧ Codec.Faithful InitializationStatus ∧
    Codec.Faithful AttemptMetrics ∧ Codec.Faithful DurationTotals ∧
    Codec.Faithful Initialization ∧ Codec.Faithful VertexId ∧ Codec.Faithful AttemptId ∧
    Codec.Faithful MetricView ∧ Codec.Faithful SummaryView := by
  refine ⟨fun _ => Iff.rfl, Codec.fits_string, fun _ => Iff.rfl, fun _ => Iff.rfl, ?_⟩
  exact ⟨Codec.faithful _, Codec.faithful _, Codec.faithful _, Codec.faithful _,
    Codec.faithful _, Codec.faithful _, Codec.faithful _, Codec.faithful _, Codec.faithful _,
    Codec.faithful _, Codec.faithful _, Codec.faithful _, Codec.faithful _, Codec.faithful _,
    Codec.faithful _, Codec.faithful _, Codec.faithful _, Codec.faithful _⟩

/-- All that has to be escaped: both signs that are, the first character, and a line feed. -/
def awkwardText : String := "\"\\\x00\x1f\n"

/-- A report in which every number is the greatest. -/
def greatestReport : Report :=
  ((((Report.new wordMax wordMax).withSizes wordMax wordMax).withData wordMax wordMax).withDurations
    wordMax wordMax).withAlignment wordMax wordMax

/-- The greatest numbers, awkward names and reports out of order are read as they were. -/
theorem extremes_faithful :
    let restored : Restored :=
      ⟨wordMax, ⟨.savepoint .native, .always⟩, wordMax, some awkwardText, wordMax⟩
    let attempt : AttemptMetrics :=
      ⟨wordMax, 0, .ofList [(awkwardText, wordMax), ("", 0)], .failed⟩
    let group : GroupReports := ⟨⟨0, by decide⟩, wordMax, [greatestReport, .new 0 0]⟩
    let metric : MetricView := ⟨wordMax, some 0, some wordMax, wordMax, none⟩
    Codec.read (Codec.write restored) = some restored ∧
      Codec.read (Codec.write attempt) = some attempt ∧
      Codec.read (Codec.write group) = some group ∧
      Codec.read (Codec.write metric) = some metric := by
  intro restored attempt group metric
  obtain ⟨-, -, -, -, -, -, -, -, -, -, -, -, hgroup, hrestored, -, hattempt, -, -, -, -, hmetric, -⟩ :=
    every_type_faithful
  have hzero : Fits 0 := Nat.zero_le _
  have hgreatest : Fits wordMax := Nat.le_refl _
  refine ⟨hrestored _ ⟨hgreatest, hgreatest, hgreatest⟩,
    hattempt _ ⟨hgreatest, hzero, ?durations⟩, hgroup _ ⟨hgreatest, ?reports⟩,
    hmetric _ ⟨hgreatest, ?least, ?greatest, hgreatest, rfl⟩⟩
  case durations =>
    show ∀ d ∈ attempt.durations.entries, d.2 ≤ wordMax
    decide
  case reports =>
    intro r hr
    have hone : r = greatestReport ∨ r = .new 0 0 := by simpa [group] using hr
    rcases hone with rfl | rfl
    · exact ⟨hgreatest, hgreatest, hgreatest, hgreatest, hgreatest, hgreatest, hgreatest,
        hgreatest, hgreatest, hgreatest⟩
    · exact ⟨hzero, hzero, hzero, hzero, hzero, hzero, hzero, hzero, hzero, hzero⟩
  case least => exact fun n hn => Option.some.inj hn ▸ hzero
  case greatest => exact fun n hn => Option.some.inj hn ▸ hgreatest

end CheckpointLedger
