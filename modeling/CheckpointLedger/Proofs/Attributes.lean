import CheckpointLedger.Initialization
import CheckpointLedger.Proofs.Maps

/-!
# The attributes of an initialization

The span of a complete generation has three attributes of its own and two for each duration, which
are called by the name of the duration behind one of two prefixes. A name can be any text, and
attributes are overwritten without notice. So what has to be shown is that **no two attributes are
called the same**: not those of different durations, since what is behind a prefix can be read off;
not the two of one duration, and not one of these and one of the three, since `M`, `S` and the
letters that the three begin with are all different.
-/

namespace CheckpointLedger

namespace Initialization

/-- The two attributes for a duration. -/
def durationAttributes (d : String × DurationTotals) : List (String × Value) :=
  [("Max" ++ d.1, .ofNat d.2.max), ("Sum" ++ d.1, .ofNat d.2.sum)]

/-- All attributes, in the order in which they are put in. -/
def written (i : Initialization) : List (String × Value) :=
  [("checkpointId", .ofNat i.checkpoint), ("fullSize", .ofNat i.stateSize),
   ("initializationStatus", .text i.status.display)] ++
    i.durations.entries.flatMap durationAttributes

theorem foldl_addDuration (durations : List (String × DurationTotals)) (s : Span) :
    durations.foldl (fun s d => addDuration s d.1 d.2) s =
      { s with attributes := s.attributes.insertAll (durations.flatMap durationAttributes) } := by
  induction durations generalizing s with
  | nil => rfl
  | cons d rest ih =>
    rw [List.foldl_cons, ih, List.flatMap_cons, OrderedMap.insertAll, OrderedMap.insertAll,
      List.foldl_append]
    rfl

/-- **The span is made of what is written on it.** -/
theorem span_eq (i : Initialization) (scope : String) :
    i.span scope = ⟨scope, "JobInitialization", i.start, i.stop, .ofList i.written⟩ := by
  rw [span, foldl_addDuration, written, OrderedMap.ofList, OrderedMap.insertAll,
    OrderedMap.insertAll, List.foldl_append]
  rfl

/-! ## No two are called the same -/

theorem head?_append_max (name : String) : ("Max" ++ name).toList.head? = some 'M' := by
  rw [String.toList_append]
  rfl

theorem head?_append_sum (name : String) : ("Sum" ++ name).toList.head? = some 'S' := by
  rw [String.toList_append]
  rfl

theorem max_ne_sum (name name' : String) : "Max" ++ name ≠ "Sum" ++ name' := by
  intro h
  have hhead := congrArg (fun s : String => s.toList.head?) h
  rw [head?_append_max, head?_append_sum] at hhead
  cases hhead

theorem mem_map_durationAttributes {d : String × DurationTotals} {key : String} :
    key ∈ (durationAttributes d).map Prod.fst ↔ key = "Max" ++ d.1 ∨ key = "Sum" ++ d.1 := by
  simp [durationAttributes]

/-- From what an attribute is called, what the duration is called comes back. -/
theorem eq_of_mem_durationAttributes {d e : String × DurationTotals} {key : String}
    (hd : key ∈ (durationAttributes d).map Prod.fst)
    (he : key ∈ (durationAttributes e).map Prod.fst) : d.1 = e.1 := by
  rw [mem_map_durationAttributes] at hd he
  rcases hd with rfl | rfl
  · rcases he with h | h
    · exact (String.append_right_inj _).mp h
    · exact absurd h (max_ne_sum _ _)
  · rcases he with h | h
    · exact absurd h.symm (max_ne_sum _ _)
    · exact (String.append_right_inj _).mp h

theorem nodup_written (i : Initialization) : (i.written.map Prod.fst).Nodup := by
  have hthree : ["checkpointId", "fullSize", "initializationStatus"].Nodup := by decide
  rw [written, List.map_append, List.map_flatMap]
  refine List.nodup_append.mpr ⟨hthree, List.nodup_flatMap.mpr ⟨fun d _ => ?_, ?_⟩, ?_⟩
  · show ["Max" ++ d.1, "Sum" ++ d.1].Nodup
    simp
  · have hnames : i.durations.entries.Pairwise (fun d e => d.1 ≠ e.1) :=
      List.pairwise_map.mp i.durations.nodup_keys
    exact hnames.imp (fun hne key hd he => hne (eq_of_mem_durationAttributes hd he))
  · -- none of the three begins like one of the others
    have hfixed : ∀ key ∈ ["checkpointId", "fullSize", "initializationStatus"],
        key.toList.head? ≠ some 'M' ∧ key.toList.head? ≠ some 'S' := by decide
    rintro key hkey _ hkey' rfl
    obtain ⟨hnotM, hnotS⟩ := hfixed key hkey
    obtain ⟨d, -, hd⟩ := List.mem_flatMap.mp hkey'
    rcases mem_map_durationAttributes.mp hd with rfl | rfl
    · exact hnotM (head?_append_max d.1)
    · exact hnotS (head?_append_sum d.1)

/-- There are two for each duration. -/
theorem length_written (i : Initialization) : i.written.length = 3 + 2 * i.durations.size := by
  have htwo : ∀ durations : List (String × DurationTotals),
      (durations.flatMap durationAttributes).length = 2 * durations.length := by
    intro durations
    induction durations with
    | nil => rfl
    | cons d rest ih =>
      rw [List.flatMap_cons, List.length_append, ih, List.length_cons]
      show 2 + 2 * rest.length = _
      omega
  rw [written, List.length_append, htwo]
  rfl

theorem find?_attributes (i : Initialization) (scope key : String) (value : Value) :
    (i.span scope).attributes.find? key = some value ↔ (key, value) ∈ i.written := by
  rw [span_eq]
  exact OrderedMap.find?_ofList i.nodup_written key value

/--
**No attribute of an initialization is lost.** Whatever its durations are called, the span of an
initialization goes from its beginning to its end, and has three attributes and two for each
duration. The three have the id of the checkpoint, its size and how it ended. Behind `Max` and
`Sum`, each name has the longest and the sum for this name, cut to what can be shown. For no two of
all attributes are called the same, so the span has each of them as it was put in, and has the same
ones in whatever order they are put in.
-/
theorem span_keeps_attributes (i : Initialization) (scope : String) :
    let s := i.span scope
    s.start = i.start ∧ s.stop = i.stop ∧ s.attributes.size = 3 + 2 * i.durations.size ∧
    s.attributes.find? "checkpointId" = some (.long (min i.checkpoint longMax : Nat)) ∧
    s.attributes.find? "fullSize" = some (.long (min i.stateSize longMax : Nat)) ∧
    s.attributes.find? "initializationStatus" = some (.text i.status.display) ∧
    (∀ name t, i.durations.find? name = some t →
      s.attributes.find? ("Max" ++ name) = some (.long (min t.max longMax : Nat)) ∧
      s.attributes.find? ("Sum" ++ name) = some (.long (min t.sum longMax : Nat))) ∧
    (i.written.map Prod.fst).Nodup ∧ s.attributes.entries.Perm i.written ∧
    ∀ reordered : List (String × Value), reordered.Perm i.written →
      OrderedMap.ofList reordered = s.attributes := by
  intro s
  have hs : s = ⟨scope, "JobInitialization", i.start, i.stop, .ofList i.written⟩ :=
    i.span_eq scope
  have hperm : s.attributes.entries.Perm i.written := by
    rw [hs]
    exact OrderedMap.entries_ofList_perm i.nodup_written
  have hthree {key : String} {value : Value} (h : (key, value) ∈ i.written.take 3) :
      s.attributes.find? key = some value :=
    (i.find?_attributes scope key value).mpr (List.mem_of_mem_take h)
  refine ⟨by rw [hs], by rw [hs], ?_, hthree (.head _), hthree (.tail _ (.head _)),
    hthree (.tail _ (.tail _ (.head _))), fun name t ht => ?_, i.nodup_written, hperm,
    fun reordered hreordered => ?_⟩
  · rw [OrderedMap.size, hperm.length_eq, length_written]
  · have hmem := (i.durations.find?_eq_some_iff name t).mp ht
    have hwritten {b : String × Value} (hb : b ∈ durationAttributes (name, t)) : b ∈ i.written :=
      List.mem_append_right _ (List.mem_flatMap.mpr ⟨_, hmem, hb⟩)
    exact ⟨(i.find?_attributes scope _ _).mpr (hwritten (.head _)),
      (i.find?_attributes scope _ _).mpr (hwritten (.tail _ (.head _)))⟩
  · rw [hs]
    exact OrderedMap.ofList_eq_of_perm i.nodup_written hreordered

/-- An initialization with durations of names that might be taken for attributes. -/
def ambiguous : Initialization where
  generation := 1
  checkpoint := 7
  stateSize := wordMax
  start := 10
  stop := 40
  status := .failed
  attempts := 2
  durations :=
    .ofList [("", ⟨1, 2⟩), ("X", ⟨3, 4⟩), ("SumX", ⟨5, wordMax⟩), ("checkpointId", ⟨6, 7⟩)]

theorem ambiguous_span_keeps_attributes :
    let s := ambiguous.span "test"
    s.attributes.size = 11 ∧ s.attributes.find? "checkpointId" = some (.long 7) ∧
    s.attributes.find? "fullSize" = some (.long longMax) ∧
    s.attributes.find? "Max" = some (.long 1) ∧ s.attributes.find? "SumX" = some (.long 4) ∧
    s.attributes.find? "SumSumX" = some (.long longMax) ∧
    s.attributes.find? "MaxcheckpointId" = some (.long 6) := by
  obtain ⟨-, -, hsize, hid, hfull, -, hdurations, -⟩ := span_keeps_attributes ambiguous "test"
  exact ⟨hsize.trans rfl, hid.trans rfl, hfull.trans rfl, (hdurations "" ⟨1, 2⟩ rfl).1,
    (hdurations "X" ⟨3, 4⟩ rfl).2, (hdurations "SumX" ⟨5, wordMax⟩ rfl).2,
    (hdurations "checkpointId" ⟨6, 7⟩ rfl).1⟩

end Initialization

end CheckpointLedger
