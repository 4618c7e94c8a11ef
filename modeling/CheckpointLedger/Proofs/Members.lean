import CheckpointLedger.Json.Codec
import Mathlib.Data.List.Forall2

/-!
# What the members of an object say of the fields

A record is found in the members of an object under the names of its fields. Which document is
there for a field, or that there is none, does not depend on the order of the members, nor on
those of other names: it is enough that the members under names of fields are a permutation of
the ones that are **given** for the fields (`Field.readAll_of_perm`). One field that cannot be
told is enough for the record not to be read.
-/

namespace CheckpointLedger

namespace Codec

/-- A list is read exactly if each of its elements is. -/
theorem mapM_eq_some_iff {α β : Type} {f : α → Option β} {xs : List α} {ys : List β} :
    xs.mapM f = some ys ↔ List.Forall₂ (fun x y => f x = some y) xs ys := by
  induction xs generalizing ys with
  | nil => cases ys <;> simp
  | cons x xs ih =>
    rw [List.mapM_cons]
    cases h : f x with
    | none => cases ys <;> simp [h]
    | some y => cases hrest : xs.mapM f <;> cases ys <;> simp [h, hrest, ← ih]

theorem mapM_eq_none_of_mem {α β : Type} {f : α → Option β} {xs : List α} {x : α} (hx : x ∈ xs)
    (h : f x = none) : xs.mapM f = none := by
  cases hread : xs.mapM f with
  | none => rfl
  | some ys =>
    obtain ⟨i, hi, rfl⟩ := List.getElem_of_mem hx
    have hget := (mapM_eq_some_iff.mp hread).get hi
      ((mapM_eq_some_iff.mp hread).length_eq ▸ hi)
    simp [h] at hget

end Codec

namespace Field

/-- The members for those fields of which a document is there. -/
def given : List Field → List (Option Json) → List (String × Json)
  | field :: fields, some v :: docs => (field.name, v) :: given fields docs
  | _ :: fields, none :: docs => given fields docs
  | _, _ => []

theorem name_mem_of_mem_given {fields : List Field} {docs : List (Option Json)}
    {m : String × Json} (h : m ∈ given fields docs) : m.1 ∈ fields.map name := by
  induction fields generalizing docs with
  | nil => simp [given] at h
  | cons field fields ih =>
    cases docs with
    | nil => simp [given] at h
    | cons d docs =>
      cases d with
      | none => exact List.mem_cons_of_mem _ (ih h)
      | some v =>
        rcases List.mem_cons.mp h with rfl | h
        · exact List.mem_cons_self
        · exact List.mem_cons_of_mem _ (ih h)

/-- Under the name of a field there is the one member for it, or none. -/
theorem filter_given {fields : List Field} {docs : List (Option Json)}
    (hnodup : (fields.map name).Nodup) {field : Field} {d : Option Json}
    (h : (field, d) ∈ fields.zip docs) :
    (given fields docs).filter (·.1 == field.name) = (d.map (field.name, ·)).toList := by
  induction fields generalizing docs with
  | nil => simp at h
  | cons first fields ih =>
    cases docs with
    | nil => simp at h
    | cons d' docs =>
      obtain ⟨hfresh, hrest⟩ := List.nodup_cons.mp hnodup
      rcases List.mem_cons.mp h with he | hzip
      · obtain ⟨rfl, rfl⟩ := Prod.mk.inj he
        have hnone : (given fields docs).filter (·.1 == field.name) = [] := by
          refine List.filter_eq_nil_iff.mpr (fun m hm heq => hfresh ?_)
          rw [← beq_iff_eq.mp heq]
          exact name_mem_of_mem_given hm
        cases d with
        | none => exact hnone
        | some v => simp [given, hnone]
      · have hne : first.name ≠ field.name := by
          intro heq
          rw [heq] at hfresh
          exact hfresh (List.mem_map_of_mem (List.of_mem_zip hzip).1)
        cases d' with
        | none => exact ih hrest hzip
        | some v => simpa [given, hne] using ih hrest hzip

/-- A field is found among members of other names, in whatever order. -/
theorem pick?_of_perm {fields : List Field} {docs : List (Option Json)}
    {members : List (String × Json)} (hnodup : (fields.map name).Nodup)
    (hperm : (members.filter (fun m => m.1 ∈ fields.map name)).Perm (given fields docs))
    {field : Field} {d : Option Json} (h : (field, d) ∈ fields.zip docs)
    (habsent : d = none → field.absence ≠ .forbidden) : field.pick? members = some d := by
  have hmem : field.name ∈ fields.map name := List.mem_map_of_mem (List.of_mem_zip h).1
  have hfound : (members.filter (·.1 == field.name)).Perm (d.map (field.name, ·)).toList := by
    have hboth := hperm.filter (·.1 == field.name)
    rw [filter_given hnodup h, List.filter_filter] at hboth
    refine (List.filter_congr (fun m _ => ?_)) ▸ hboth
    by_cases hname : m.1 = field.name
    · simp [hname, hmem]
    · simp [hname]
  unfold pick?
  cases d with
  | none =>
    rw [hfound.eq_nil]
    exact if_neg (habsent rfl)
  | some v => rw [List.perm_singleton.mp hfound]

theorem named?_ofMembers (members : List (String × Json)) :
    named? (members.map (fun m => (some m.1, m.2))) = some members := by
  rw [named?, Codec.mapM_eq_some_iff, List.forall₂_map_left_iff]
  exact List.forall₂_same.mpr (fun _ _ => rfl)

/-- **What members say of the fields does not depend on their order**, nor on other members. -/
theorem readAll_of_perm {fields : List Field} {docs : List (Option Json)}
    {members : List (String × Json)} (hnodup : (fields.map name).Nodup)
    (habsent : List.Forall₂ (fun field d => d = none → field.absence ≠ .forbidden) fields docs)
    (hperm : (members.filter (fun m => m.1 ∈ fields.map name)).Perm (given fields docs)) :
    readAll fields (.ofMembers members) = some docs := by
  obtain ⟨hlength, hallowed⟩ := List.forall₂_iff_zip.mp habsent
  have hpicked : fields.mapM (·.pick? members) = some docs := by
    rw [Codec.mapM_eq_some_iff, List.forall₂_iff_zip]
    exact ⟨hlength, fun {field d} h => pick?_of_perm hnodup hperm h (hallowed h)⟩
  show (named? (members.map _)).bind _ = _
  rw [named?_ofMembers]
  exact hpicked

/-- One field that cannot be told is enough. -/
theorem readAll_eq_none {fields : List Field} {members : List (Option String × Json)}
    {field : Field} (hfield : field ∈ fields)
    (h : ∀ found, named? members = some found → field.pick? found = none) :
    readAll fields (.object members) = none := by
  show (named? members).bind _ = none
  cases hnamed : named? members with
  | none => rfl
  | some found => exact Codec.mapM_eq_none_of_mem hfield (h found hnamed)

theorem count_named? {members : List (Option String × Json)} {found : List (String × Json)}
    (h : named? members = some found) (name : String) :
    (found.filter (·.1 == name)).length = (members.map Prod.fst).count (some name) := by
  rw [named?, Codec.mapM_eq_some_iff] at h
  induction h with
  | nil => rfl
  | @cons m f members found hm _ ih =>
    obtain ⟨s, hs, rfl⟩ := Option.map_eq_some_iff.mp hm
    by_cases hname : s = name <;> simp_all

/-- A field that comes twice cannot be told, nor can one that is missing and must not be. -/
theorem pick?_eq_none {field : Field} {members : List (String × Json)}
    (h : 1 < (members.filter (·.1 == field.name)).length ∨
      (members.filter (·.1 == field.name)).length = 0 ∧ field.absence = .forbidden) :
    field.pick? members = none := by
  unfold pick?
  split
  · simp_all
  · simp_all
  · rfl

end Field

end CheckpointLedger
