import CheckpointLedger.Json.Codec
import CheckpointLedger.Proofs.Documents
import CheckpointLedger.Proofs.Maps
import CheckpointLedger.Proofs.Members

/-!
# Codecs that lose nothing

What a codec writes it is to read back as it was. For a codec of one type this asks for two
things (`Lawful`): that its documents can be written, and that decoding undoes encoding, at
least of those values that **fit**. Not all do: a number has to fit into 64 bits, and an average
is written in a form in which it is not read.

For each way to make a codec from others there is one instance here: lists, optional values
and maps, and the two kinds of type that share a rule, records (`LawfulRecord`) and choices
that carry nothing (`LawfulNamed`). A record says only what its fields are and that they make
it up again. That they are found, each under its name and no two under one, is the same for
all records (`Field.readAll_members`).
-/

namespace CheckpointLedger

/-- A codec that reads what it writes. -/
class Lawful (α : Type) [Codec α] where
  /-- Which values are read back. -/
  Fits : α → Prop
  /-- What is written is a document. -/
  wellFormed (a : α) : (encode a).WellFormed
  /-- Reading undoes writing. -/
  decode_encode (a : α) : Fits a → decode (encode a) = some a

export Lawful (Fits wellFormed decode_encode)

attribute [simp] wellFormed

namespace Codec

/-- **A text that was written is read as the value that it was.** -/
theorem read_write {α : Type} [Codec α] [Lawful α] {a : α} (h : Fits a) : read (write a) = some a := by
  unfold read write
  rw [Json.parse_render (wellFormed a), Option.bind_some, decode_encode a h]

/-- Whether every value that fits is read from its text as it was. -/
def Faithful (α : Type) [Codec α] [Lawful α] : Prop := ∀ a : α, Fits a → read (write a) = some a

theorem faithful (α : Type) [Codec α] [Lawful α] : Faithful α := fun _ h => read_write h

/-! ## Leaves -/

instance : Lawful Nat where
  Fits n := n ≤ wordMax
  wellFormed _ := .number (fun _ hc => absurd hc List.not_mem_nil)
  decode_encode _ h := if_pos ⟨rfl, rfl, rfl, h⟩

instance : Lawful Bool where
  Fits _ := True
  wellFormed b := .bool b
  decode_encode _ _ := rfl

instance : Lawful String where
  Fits _ := True
  wellFormed s := .string s
  decode_encode _ _ := rfl

@[simp]
theorem fits_bool (b : Bool) : Fits b := trivial

@[simp]
theorem fits_string (s : String) : Fits s := trivial

/-- It is not written as a number, so it is not read back. -/
instance : Lawful Float where
  Fits _ := False
  wellFormed x := by
    refine .ofMembers (fun m hm => ?_)
    rw [List.mem_singleton.mp hm]
    exact .string _
  decode_encode _ h := h.elim

/-! ## Lists, optional values and maps -/

/-- Where every element is read, so is the list. -/
theorem mapM_eq_some_map {α β γ : Type} {f : β → Option γ} {g : α → β} {h : α → γ}
    {l : List α} (hf : ∀ x ∈ l, f (g x) = some (h x)) :
    (l.map g).mapM f = some (l.map h) := by
  rw [mapM_eq_some_iff, List.forall₂_map_left_iff, List.forall₂_map_right_iff]
  exact List.forall₂_same.mpr hf

instance {α : Type} [Codec α] [Lawful α] : Lawful (List α) where
  Fits items := ∀ a ∈ items, Fits a
  wellFormed items := by
    refine .array (fun v hv => ?_)
    obtain ⟨a, -, rfl⟩ := List.mem_map.mp hv
    exact wellFormed a
  decode_encode items h := by
    have hread := mapM_eq_some_map (h := id) (fun a ha => decode_encode a (h a ha))
    rw [List.map_id] at hread
    exact hread

/-- A codec that does not write a value as if it were missing. -/
class NonNull (α : Type) [Codec α] : Prop where
  encode_ne_null (a : α) : encode a ≠ .null

instance : NonNull Nat := ⟨nofun⟩

instance : NonNull String := ⟨nofun⟩

instance : NonNull Float := ⟨nofun⟩

instance {α : Type} [Codec α] [NonNull α] [Lawful α] : Lawful (Option α) where
  Fits a? := ∀ a ∈ a?, Fits a
  wellFormed
    | none => .null
    | some a => wellFormed a
  decode_encode a? h := by
    cases a? with
    | none => rfl
    | some a =>
      -- only a value that is written as null would be read as missing
      have hne := NonNull.encode_ne_null a
      have hread := decode_encode a (h a rfl)
      show (match encode a with | .null => some none | v => (decode v).map some) = some (some a)
      generalize encode a = v at hne hread
      cases v with
      | null => exact absurd rfl hne
      | _ => exact congrArg (Option.map some) hread

@[simp]
theorem fits_none {α : Type} [Codec α] [NonNull α] [Lawful α] : Fits (none : Option α) := nofun

/-- A text may be there or not. -/
@[simp]
theorem fits_optional_string (s? : Option String) : Fits s? := fun s _ => fits_string s

end Codec

namespace Codec

instance {α : Type} [Codec α] [Lawful α] : Lawful (OrderedMap String α) where
  Fits m := ∀ b ∈ m.entries, Fits b.2
  wellFormed m := by
    refine .ofMembers (fun e he => ?_)
    obtain ⟨b, -, rfl⟩ := List.mem_map.mp he
    exact wellFormed b.2
  decode_encode m h := by
    have hread := mapM_eq_some_map (f := (binding? : _ → Option (String × α)))
      (g := fun b : String × α => (some b.1, encode b.2)) (h := id) (l := m.entries)
      (fun b hb => by
        show (decode (encode b.2)).map _ = _
        rw [decode_encode b.2 (h b hb)]
        rfl)
    rw [List.map_id] at hread
    show (((m.entries.map _).map _).mapM binding?).map OrderedMap.ofList = _
    rw [List.map_map]
    exact (congrArg (Option.map OrderedMap.ofList) hread).trans
      (congrArg some m.ofList_entries)

end Codec

/-! ## Records -/

namespace Field

/-- If there is a document for every field, there is a member for each. -/
theorem given_map_some {fields : List Field} {values : List Json}
    (hlength : values.length = fields.length) :
    given fields (values.map some) = (fields.map name).zip values := by
  induction fields generalizing values with
  | nil => rfl
  | cons field fields ih =>
    cases values with
    | nil => cases hlength
    | cons v values => exact congrArg (_ :: ·) (ih (Nat.succ.inj hlength))

/-- **The fields of a record are found in its members**, each under its name. -/
theorem readAll_members {fields : List Field} {values : List Json}
    (hlength : values.length = fields.length) (hnodup : (fields.map name).Nodup) :
    readAll fields (.ofMembers ((fields.map name).zip values)) = some (values.map some) := by
  refine readAll_of_perm hnodup (List.forall₂_iff_zip.mpr ⟨?_, fun {field d} hzip hnone => ?_⟩) ?_
  · rw [List.length_map, hlength]
  · obtain ⟨v, -, hv⟩ := List.mem_map.mp (List.of_mem_zip hzip).2
    rw [hnone] at hv
    cases hv
  · -- there are no other members
    rw [given_map_some hlength, List.filter_eq_self.mpr]
    intro m hm
    exact decide_eq_true (List.of_mem_zip hm).1

variable {α : Type} [Codec α] [Lawful α] {a : α}

theorem required_encode (h : Fits a) : required (some (encode a)) = some a := decode_encode a h

theorem optional_encode [Codec.NonNull α] {a? : Option α} (h : Fits a?) :
    optional (some (encode a?)) = some a? := decode_encode a? h

theorem defaulted_encode (default : α) (h : Fits a) :
    defaulted default (some (encode a)) = some a := decode_encode a h

end Field

/-- A record that is made up of its fields again. -/
class LawfulRecord (α : Type) [Record α] where
  /-- Which records are read back: those of which all fields are. -/
  Fits : α → Prop
  /-- No two fields have one name. -/
  nodup : ((Record.fields α).map Field.name).Nodup
  /-- There is a document for each field. -/
  length_toValues (a : α) : (Record.toValues a).length = (Record.fields α).length
  /-- They are documents. -/
  wellFormed (a : α) : ∀ v ∈ Record.toValues a, v.WellFormed
  /-- The record is what its fields are read as. -/
  ofValues_toValues (a : α) : Fits a → Record.ofValues ((Record.toValues a).map some) = some a

instance {α : Type} [Record α] [LawfulRecord α] : Lawful α where
  Fits := LawfulRecord.Fits
  wellFormed a :=
    .ofMembers (fun m hm => LawfulRecord.wellFormed a m.2 (List.of_mem_zip hm).2)
  decode_encode a h := by
    have hread := Field.readAll_members (LawfulRecord.length_toValues a) LawfulRecord.nodup
    exact (congrArg (Option.bind · Record.ofValues) hread).trans
      (LawfulRecord.ofValues_toValues a h)

/-! ## Choices -/

/-- A choice of which every case is found by its name. -/
class LawfulNamed (α : Type) [Named α] : Prop where
  find?_name (a : α) : Named.all.find? (fun b : α => Named.name b == Named.name a) = some a

instance {α : Type} [Named α] [LawfulNamed α] : Lawful α where
  Fits _ := True
  wellFormed _ := .string _
  decode_encode a _ := LawfulNamed.find?_name a

@[simp]
theorem fits_named {α : Type} [Named α] [LawfulNamed α] (a : α) : Fits a := trivial

end CheckpointLedger
