import CheckpointLedger.Proofs.Decoding

/-!
# Which documents a record is read from

A record is written in one way and read in many. The members of an object may come in any order
and among others, an optional field may be left out, and an array of the fields does as well; and
what is said of a field may itself be any document that is read as its value. So what a record is
read from does not depend on how it was written, but on **what is said of each field**
(`Documents`): once at most, under the name of the field or in its place, and not at all only if
this means something.

That the fields are found is one argument for all records, by their list of names
(`Field.readAll_of_perm`). A record adds how each of its fields is read, which of them may be
missing, and what is meant then (`Fieldwise`). The law for all records that follows from this is
`FieldLaw`.
-/

namespace CheckpointLedger

namespace Codec

/-- Only what is missing is written as `null`. -/
@[simp]
theorem encode_eq_null_iff {α : Type} [Codec α] [NonNull α] {a? : Option α} :
    encode a? = .null ↔ a? = none := by
  cases a? with
  | none => simp [encode]
  | some a => simpa [encode] using NonNull.encode_ne_null a

@[simp]
theorem encode_eq_nat_iff {n m : Nat} : encode n = .nat m ↔ n = m := by
  simp [encode, Json.nat, Numeral.ofNat]

end Codec

namespace Field

@[simp]
theorem required_none {α : Type} [Codec α] : (required none : Option α) = none := rfl

@[simp]
theorem optional_none_iff {α : Type} [Codec α] {a? : Option α} :
    optional none = some a? ↔ a? = none := by
  simp [optional, eq_comm]

@[simp]
theorem defaulted_none_iff {α : Type} [Codec α] {default a : α} :
    defaulted default none = some a ↔ a = default := by
  simp [defaulted, eq_comm]

end Field

/-! ## Records, field by field -/

/-- A record of which each field is read by itself. -/
class Fieldwise (α : Type) [Record α] [LawfulRecord α] where
  /-- Of which documents a field is read as that of the record, or if there is none. -/
  reads : α → List (Option Json → Prop)
  /-- The fields that may be missing in an object, each with the document that is meant then. -/
  omissible : List (String × Json) := []
  /-- How many elements an array has at least. -/
  least : Nat := (Record.fields α).length
  /-- If all fields are read as those of the record, it is the record that is read. -/
  ofValues_of_reads {a : α} {docs : List (Option Json)} :
    List.Forall₂ (fun reads d => reads d) (reads a) docs → Record.ofValues docs = some a
  /-- What is written of a field is read, and so is its absence where that is what it means. -/
  reads_form (a : α) : Fits a →
    List.Forall₂ (fun (form : String × Json) reads => reads (some form.2) ∧
        (form ∈ omissible → reads none))
      (((Record.fields α).map Field.name).zip (Record.toValues a)) (reads a)
  /-- Absence means nothing else. -/
  absent (a : α) : List.Forall₂ (fun (field : Field) reads =>
    field.absence = .forbidden → ¬ reads none) (Record.fields α) (reads a)
  forbidden_iff : ∀ field ∈ Record.fields α,
    field.absence = .forbidden ↔ field.name ∉ omissible.map Prod.fst := by decide
  least_le_iff : ∀ n ≤ (Record.fields α).length,
    ((Record.fields α).drop n).all (·.absence = .default) ↔ least ≤ n := by decide

/-- What is said of each field of a record, so that it is read as that of the record. -/
def Documents {α : Type} [Record α] [LawfulRecord α] [Fieldwise α] (a : α)
    (docs : List (Option Json)) : Prop :=
  List.Forall₂ (fun reads d => reads d) (Fieldwise.reads a) docs

/--
Each field is said as it is written, or nothing is said of it where this means the same: the
omissible fields are given with the form that is meant.
-/
def Shows {α : Type} [Record α] (omissible : List (String × Json)) (a : α)
    (docs : List (Option Json)) : Prop :=
  List.Forall₂ (fun (form : String × Json) d => d = some form.2 ∨ d = none ∧ form ∈ omissible)
    (((Record.fields α).map Field.name).zip (Record.toValues a)) docs

/--
From which documents a record is read, if these fields may be missing and an array has at least
so many elements.
-/
structure FieldLaw (α : Type) [Record α] [LawfulRecord α] [Fieldwise α]
    (omissible : List (String × Json)) (least : Nat) : Prop where
  /-- What is said of the fields may be what is written of them. -/
  shows : ∀ (a : α) docs, Fits a → Shows omissible a docs → Documents a docs
  /-- An object says it in its members, in any order and among members of other names. -/
  object : ∀ (a : α) docs members, Documents a docs →
    (members.filter (fun m => m.1 ∈ (Record.fields α).map Field.name)).Perm
      (Field.given (Record.fields α) docs) →
    decode (.ofMembers members) = some a
  /-- An array says it in the order of declaration, and may end early. -/
  array : ∀ (a : α) items, least ≤ items.length →
    Documents a (items.map some ++
      List.replicate ((Record.fields α).length - items.length) none) →
    decode (.array items) = some a
  /-- No name of a field may come twice. -/
  repeated : ∀ name ∈ (Record.fields α).map Field.name, ∀ members,
    1 < (members.map Prod.fst).count (some name) →
    (decode (.object members) : Option α) = none
  /-- Unless it is omissible, it has to come. -/
  missing : ∀ name ∈ (Record.fields α).map Field.name, name ∉ omissible.map Prod.fst →
    ∀ members, some name ∉ members.map Prod.fst →
    (decode (.object members) : Option α) = none
  /-- An array is neither shorter nor longer. -/
  length : ∀ items, items.length < least ∨ (Record.fields α).length < items.length →
    (decode (.array items) : Option α) = none

section

variable {α : Type} [Record α]

/-- What is not told of one field cannot be read. -/
theorem decode_eq_none {members : List (Option String × Json)} {field : Field}
    (hfield : field ∈ Record.fields α)
    (h : 1 < (members.map Prod.fst).count (some field.name) ∨
      (members.map Prod.fst).count (some field.name) = 0 ∧ field.absence = .forbidden) :
    (decode (.object members) : Option α) = none := by
  show (Field.readAll (Record.fields α) (.object members)).bind Record.ofValues = none
  rw [Field.readAll_eq_none hfield, Option.bind_none]
  intro found hnamed
  rw [← Field.count_named? hnamed] at h
  exact Field.pick?_eq_none h

variable [LawfulRecord α] [Fieldwise α]

theorem Documents.absent {a : α} {docs : List (Option Json)} (h : Documents a docs) :
    List.Forall₂ (fun field d => d = none → field.absence ≠ .forbidden) (Record.fields α) docs := by
  obtain ⟨hlength, hreads⟩ := List.forall₂_iff_zip.mp h
  have habsent := Fieldwise.absent a
  have hfields := habsent.length_eq
  refine List.forall₂_iff_get.mpr ⟨hfields.trans hlength, fun i hi hd hnone hforbidden => ?_⟩
  have hi' : i < (Fieldwise.reads a).length := hfields ▸ hi
  refine habsent.get hi hi' hforbidden ?_
  rw [← hnone]
  exact (List.Forall₂.get h hi' hd)

theorem Documents.read_object {a : α} {docs : List (Option Json)}
    {members : List (String × Json)} (h : Documents a docs)
    (hperm : (members.filter (fun m => m.1 ∈ (Record.fields α).map Field.name)).Perm
      (Field.given (Record.fields α) docs)) :
    decode (.ofMembers members) = some a := by
  show (Field.readAll (Record.fields α) (.ofMembers members)).bind Record.ofValues = _
  rw [Field.readAll_of_perm LawfulRecord.nodup h.absent hperm]
  exact Fieldwise.ofValues_of_reads h

theorem Documents.read_array {a : α} {items : List Json}
    (hleast : Fieldwise.least α ≤ items.length)
    (h : Documents a (items.map some ++
      List.replicate ((Record.fields α).length - items.length) none)) :
    decode (.array items) = some a := by
  have hlength := h.absent.length_eq
  have hle : items.length ≤ (Record.fields α).length := by
    rw [List.length_append, List.length_map, List.length_replicate] at hlength
    omega
  have hread : Field.readAll (Record.fields α) (.array items) = some (items.map some ++
      List.replicate ((Record.fields α).length - items.length) none) :=
    if_pos ⟨hle, (Fieldwise.least_le_iff _ hle).mpr hleast⟩
  show (Field.readAll (Record.fields α) (.array items)).bind Record.ofValues = _
  rw [hread]
  exact Fieldwise.ofValues_of_reads h

/-- **The law of all records.** -/
theorem fieldLaw (α : Type) [Record α] [LawfulRecord α] [Fieldwise α] :
    FieldLaw α (Fieldwise.omissible α) (Fieldwise.least α) where
  shows a docs hfits hshows := by
    have hforms := Fieldwise.reads_form a hfits
    unfold Shows at hshows
    unfold Documents
    generalize ((Record.fields α).map Field.name).zip (Record.toValues a) = forms at hforms hshows
    generalize Fieldwise.reads a = readings at hforms ⊢
    induction hforms generalizing docs with
    | nil =>
      cases hshows
      exact .nil
    | cons hform _ ih =>
      cases hshows with
      | cons hshown hrest =>
        refine .cons ?_ (ih _ hrest)
        rcases hshown with rfl | ⟨rfl, homissible⟩
        · exact hform.1
        · exact hform.2 homissible
  object a docs members hdocs hperm := hdocs.read_object hperm
  array a items hleast hdocs := hdocs.read_array hleast
  repeated name hname members hcount := by
    obtain ⟨field, hfield, rfl⟩ := List.mem_map.mp hname
    exact decode_eq_none hfield (.inl hcount)
  missing name hname homissible members hmissing := by
    obtain ⟨field, hfield, rfl⟩ := List.mem_map.mp hname
    exact decode_eq_none hfield (.inr ⟨List.count_eq_zero.mpr hmissing,
      (Fieldwise.forbidden_iff field hfield).mpr homissible⟩)
  length items hlength := by
    have hread : Field.readAll (Record.fields α) (.array items) = none := by
      refine if_neg (fun h => ?_)
      have := (Fieldwise.least_le_iff _ h.1).mp h.2
      omega
    show (Field.readAll (Record.fields α) (.array items)).bind Record.ofValues = none
    rw [hread, Option.bind_none]

end

instance : Fieldwise Config where
  reads c := [(Field.defaulted ({} : Config).historySize · = some c.historySize)]
  omissible := [("history_size", .nat 10)]
  least := 0
  ofValues_of_reads
    | .cons h1 .nil => by simp_all [Record.ofValues]
  reads_form c h := by
    have hsize : Fits c.historySize := h
    simp [Record.fields, Record.toValues, Field.defaulted_encode _ hsize]
  absent c := by simp [Record.fields]

instance : Fieldwise Properties where
  reads p := [(Field.required · = some p.kind), (Field.required · = some p.retention)]
  ofValues_of_reads
    | .cons h1 (.cons h2 .nil) => by simp_all [Record.ofValues]
  reads_form p h := by
    simp [Record.fields, Record.toValues, Field.required_encode, *]
  absent p := by simp [Record.fields]

instance : Fieldwise Counts where
  reads c :=
    [(Field.required · = some c.restored), (Field.required · = some c.total),
     (Field.required · = some c.inProgress), (Field.required · = some c.completed),
     (Field.required · = some c.failed)]
  ofValues_of_reads
    | .cons h1 (.cons h2 (.cons h3 (.cons h4 (.cons h5 .nil)))) => by simp_all [Record.ofValues]
  reads_form c h := by
    obtain ⟨h1, h2, h3, h4, h5⟩ := h
    simp [Record.fields, Record.toValues, Field.required_encode, *]
  absent c := by simp [Record.fields]

instance : Fieldwise Report where
  reads r :=
    [(Field.required · = some r.subtask), (Field.required · = some r.ackTime),
     (Field.required · = some r.checkpointedSize), (Field.required · = some r.stateSize),
     (Field.required · = some r.syncDuration), (Field.required · = some r.asyncDuration),
     (Field.required · = some r.processedData), (Field.required · = some r.persistedData),
     (Field.required · = some r.alignmentDuration), (Field.required · = some r.startDelay),
     (Field.required · = some r.unaligned), (Field.required · = some r.tookSnapshot)]
  ofValues_of_reads h := by
    obtain _ | ⟨h1, _ | ⟨h2, _ | ⟨h3, _ | ⟨h4, _ | ⟨h5, _ | ⟨h6, _ | ⟨h7, _ | ⟨h8, _ | ⟨h9,
      _ | ⟨h10, _ | ⟨h11, _ | ⟨h12, ⟨⟩⟩⟩⟩⟩⟩⟩⟩⟩⟩⟩⟩⟩ := h
    simp_all [Record.ofValues]
  reads_form r h := by
    obtain ⟨h1, h2, h3, h4, h5, h6, h7, h8, h9, h10⟩ := h
    simp [Record.fields, Record.toValues, Field.required_encode, *]
  absent r := by simp [Record.fields]

instance : Fieldwise GroupReports where
  reads g :=
    [(Field.required · = some g.vertex), (Field.required · = some g.parallelism),
     (Field.required · = some g.reports)]
  ofValues_of_reads
    | .cons h1 (.cons h2 (.cons h3 .nil)) => by simp_all [Record.ofValues]
  reads_form g h := by
    obtain ⟨h1, h2⟩ := h
    simp [Record.fields, Record.toValues, Field.required_encode, *]
  absent g := by simp [Record.fields]

instance : Fieldwise Restored where
  reads r :=
    [(Field.required · = some r.id), (Field.required · = some r.properties),
     (Field.required · = some r.time), (Field.optional · = some r.path),
     (Field.required · = some r.stateSize)]
  omissible := [("external_path", .null)]
  ofValues_of_reads
    | .cons h1 (.cons h2 (.cons h3 (.cons h4 (.cons h5 .nil)))) => by simp_all [Record.ofValues]
  reads_form r h := by
    obtain ⟨h1, h2, h3⟩ := h
    simp [Record.fields, Record.toValues, Field.required_encode, Field.optional_encode, *]
  absent r := by simp [Record.fields]

instance : Fieldwise AttemptMetrics where
  reads m :=
    [(Field.required · = some m.start), (Field.required · = some m.stop),
     (Field.required · = some m.durations), (Field.required · = some m.status)]
  ofValues_of_reads
    | .cons h1 (.cons h2 (.cons h3 (.cons h4 .nil))) => by simp_all [Record.ofValues]
  reads_form m h := by
    obtain ⟨h1, h2, h3⟩ := h
    simp [Record.fields, Record.toValues, Field.required_encode, *]
  absent m := by simp [Record.fields]

instance : Fieldwise DurationTotals where
  reads t := [(Field.required · = some t.max), (Field.required · = some t.sum)]
  ofValues_of_reads
    | .cons h1 (.cons h2 .nil) => by simp_all [Record.ofValues]
  reads_form t h := by
    obtain ⟨h1, h2⟩ := h
    simp [Record.fields, Record.toValues, Field.required_encode, *]
  absent t := by simp [Record.fields]

instance : Fieldwise Initialization where
  reads i :=
    [(Field.required · = some i.generation), (Field.required · = some i.checkpoint),
     (Field.required · = some i.stateSize), (Field.required · = some i.start),
     (Field.required · = some i.stop), (Field.required · = some i.status),
     (Field.required · = some i.attempts), (Field.required · = some i.durations)]
  ofValues_of_reads
    | .cons h1 (.cons h2 (.cons h3 (.cons h4 (.cons h5 (.cons h6 (.cons h7
        (.cons h8 .nil))))))) => by simp_all [Record.ofValues]
  reads_form i h := by
    obtain ⟨h1, h2, h3, h4, h5, h6, h7⟩ := h
    simp [Record.fields, Record.toValues, Field.required_encode, *]
  absent i := by simp [Record.fields]

instance : Fieldwise MetricView where
  reads v :=
    [(Field.required · = some v.count), (Field.optional · = some v.min),
     (Field.optional · = some v.max), (Field.required · = some v.sum),
     (Field.optional · = some v.average)]
  omissible := [("min", .null), ("max", .null), ("average", .null)]
  ofValues_of_reads
    | .cons h1 (.cons h2 (.cons h3 (.cons h4 (.cons h5 .nil)))) => by simp_all [Record.ofValues]
  reads_form v h := by
    obtain ⟨count, min, max, sum, average⟩ := v
    obtain ⟨h1, h2, h3, h4, rfl⟩ := h
    simp [Record.fields, Record.toValues, Field.required_encode, Field.optional_encode, *]
  absent v := by simp [Record.fields]

instance : Fieldwise SummaryView where
  reads v :=
    [(Field.required · = some v.stateSize), (Field.required · = some v.checkpointedSize),
     (Field.required · = some v.duration), (Field.required · = some v.processedData),
     (Field.required · = some v.persistedData)]
  ofValues_of_reads
    | .cons h1 (.cons h2 (.cons h3 (.cons h4 (.cons h5 .nil)))) => by simp_all [Record.ofValues]
  reads_form v h := by
    obtain ⟨h1, h2, h3, h4, h5⟩ := h
    simp [Record.fields, Record.toValues, Field.required_encode, *]
  absent v := by simp [Record.fields]

/-! ## All records -/

/--
**All records are read field by field.** A text is read as the document that it is. Take any
type of record, and for a record of this type what is said of each field: it may be what is
written, or any other document that is read as this field, such as another document of a nested
record; and nothing for an optional field that is not there, or for the size of the history if it
is 10. Then the record is read from an object that has this in its members, in any order and among
any members of other names, and from the array of it. An object that has the name of a field
twice, or lacks one that is neither optional nor has a default, is not read, nor is an array of
another length; but a configuration, of which the only field has a default, is read from
the empty one.
-/
theorem records_read_field_by_field :
    (∀ (α : Type) [Codec α] (text : String) (v : Json), Json.parse text = some v →
      (Codec.read text : Option α) = decode v) ∧
    FieldLaw Config [("history_size", .nat 10)] 0 ∧ FieldLaw Properties [] 2 ∧
    FieldLaw Counts [] 5 ∧ FieldLaw Report [] 12 ∧ FieldLaw GroupReports [] 3 ∧
    FieldLaw Restored [("external_path", .null)] 5 ∧ FieldLaw AttemptMetrics [] 4 ∧
    FieldLaw DurationTotals [] 2 ∧ FieldLaw Initialization [] 8 ∧
    FieldLaw MetricView [("min", .null), ("max", .null), ("average", .null)] 5 ∧
    FieldLaw SummaryView [] 5 := by
  refine ⟨fun α _ text v hparse => ?_, fieldLaw _, fieldLaw _, fieldLaw _, fieldLaw _, fieldLaw _,
    fieldLaw _, fieldLaw _, fieldLaw _, fieldLaw _, fieldLaw _, fieldLaw _⟩
  rw [Codec.read, hparse, Option.bind_some]

/-- What is said of a checkpoint: its properties in an array, nothing of its path. -/
def restoredDocuments : List (Option Json) :=
  [some (.nat 7), some (.array [.text "Checkpoint", .text "NeverRetainAfterTermination"]),
   some (.nat 5), none, some (.nat 3)]

/-- The members for this from the last to the first, and one of another name among them. -/
def restoredMembers : List (String × Json) :=
  [("state_size", .nat 3), ("restore_timestamp", .nat 5),
   ("comment", .array [.null, .ofMembers [("checkpoint_id", .bool true)]]),
   ("properties", .array [.text "Checkpoint", .text "NeverRetainAfterTermination"]),
   ("checkpoint_id", .nat 7)]

theorem wellFormed_restoredMembers : (Json.ofMembers restoredMembers).WellFormed := by
  have hcomment : (Json.ofMembers [("checkpoint_id", .bool true)]).WellFormed :=
    .ofMembers (by simpa using .bool true)
  refine .ofMembers ?_
  simp only [restoredMembers, List.forall_mem_cons]
  refine ⟨wellFormed 3, wellFormed 5, .array ?_, .array ?_, wellFormed 7, nofun⟩
  · simpa using ⟨.null, hcomment⟩
  · simpa using ⟨.string _, .string _⟩

/-- They are read as the checkpoint; with the id once more, or without it, they are not. -/
theorem restoredMembers_read :
    Codec.read (Json.ofMembers restoredMembers).render =
      some (⟨7, .checkpoint .never, 5, none, 3⟩ : Restored) ∧
    (decode (.ofMembers (("checkpoint_id", .nat 7) :: restoredMembers)) : Option Restored) = none ∧
    (decode (.ofMembers (restoredMembers.take 4)) : Option Restored) = none := by
  obtain ⟨htext, -, -, -, -, -, hlaw, -⟩ := records_read_field_by_field
  have hdocs : Documents (⟨7, .checkpoint .never, 5, none, 3⟩ : Restored) restoredDocuments :=
    .cons rfl (.cons rfl (.cons rfl (.cons rfl (.cons rfl .nil))))
  have hkept : restoredMembers.filter (fun m => m.1 ∈ (Record.fields Restored).map Field.name) =
      (Field.given (Record.fields Restored) restoredDocuments).reverse := rfl
  have hparse := Json.parse_render wellFormed_restoredMembers
  refine ⟨(htext _ _ _ hparse).trans ?_, ?_, ?_⟩
  · exact hlaw.object _ _ restoredMembers hdocs (hkept ▸ List.reverse_perm _)
  · exact hlaw.repeated "checkpoint_id" (by decide) _ (by decide)
  · exact hlaw.missing "checkpoint_id" (by decide) (by decide) _ (by decide)

end CheckpointLedger
