import CheckpointLedger.Proofs.Identifiers
import CheckpointLedger.Proofs.Lookup
import Mathlib.Data.Char
import Mathlib.Data.List.Lex
import Mathlib.Order.Interval.Set.Defs

/-!
# The order of identifiers and of their texts

Identifiers are ordered as numbers, and so are the groups of a checkpoint. Whoever has only the
texts sees the same order, and there are three ways to look at them: the characters, the bytes that
encode them, and the sixteen bytes of the identifier itself. All three write the number in
**places**, always as many, from the most significant on. Two such numbers differ first in the most
significant place in which they differ at all, and there the greater one has the greater digit; so
one argument (`strictMonoOn_places`) answers for all three.
-/

namespace CheckpointLedger

/-! ## Numbers of so many places -/

/-- The last places of a number, the most significant first, each written by its digit. -/
def places {α : Type} (base : Nat) (digit : Nat → α) : Nat → Nat → List α
  | 0, _ => []
  | count + 1, n => places base digit count (n / base) ++ [digit (n % base)]

section

variable {α : Type} {base : Nat} {digit : Nat → α}

theorem length_places (count n : Nat) : (places base digit count n).length = count := by
  induction count generalizing n with
  | zero => rfl
  | succ count ih => rw [places, List.length_append, ih, List.length_singleton]

/-- If each digit is written by another one, so is the number. -/
theorem flatMap_places {β : Type} {f : α → List β} {image : Nat → β}
    (h : ∀ i < base, f (digit i) = [image i]) (hbase : 0 < base) (count n : Nat) :
    (places base digit count n).flatMap f = places base image count n := by
  induction count generalizing n with
  | zero => rfl
  | succ count ih =>
    rw [places, places, List.flatMap_append, ih, List.flatMap_singleton, h _ (Nat.mod_lt _ hbase)]

variable [LinearOrder α]

/-- Of lists of one length the first difference decides, whatever comes behind. -/
theorem append_lt_append {xs ys : List α} (hlength : xs.length = ys.length) (h : xs < ys)
    (us vs : List α) : xs ++ us < ys ++ vs := by
  induction h with
  | nil => cases hlength
  | rel h => exact .rel h
  | cons _ ih => exact .cons (ih (Nat.succ.inj hlength))

/-- **Numbers of so many places are ordered as the lists of their digits.** -/
theorem strictMonoOn_places (hbase : 0 < base) (hdigit : StrictMonoOn digit (Set.Iio base))
    (count : Nat) : StrictMonoOn (places base digit count) (Set.Iio (base ^ count)) := by
  induction count with
  | zero =>
    intro a ha b hb hlt
    have : b < 1 := hb
    omega
  | succ count ih =>
    intro a ha b hb hlt
    have hdiv : ∀ n ∈ Set.Iio (base ^ (count + 1)), n / base ∈ Set.Iio (base ^ count) := by
      intro n hn
      exact (Nat.div_lt_iff_lt_mul hbase).mpr hn
    rcases (Nat.div_le_div_right hlt.le : a / base ≤ b / base).lt_or_eq with hless | hsame
    · refine append_lt_append ?_ (ih (hdiv a ha) (hdiv b hb) hless) _ _
      rw [length_places, length_places]
    · -- all places but the last agree
      have hlast : a % base < b % base := by
        have ha := Nat.div_add_mod a base
        have hb := Nat.div_add_mod b base
        rw [hsame] at ha
        omega
      rw [places, places, hsame]
      exact List.append_left_lt
        (.rel (hdigit (Nat.mod_lt _ hbase) (Nat.mod_lt _ hbase) hlast))

/-- The same behind a common front. -/
theorem append_places_lt_iff (front : List α) (hbase : 0 < base)
    (hdigit : StrictMonoOn digit (Set.Iio base)) {count a b : Nat} (ha : a < base ^ count)
    (hb : b < base ^ count) :
    front ++ places base digit count a < front ++ places base digit count b ↔ a < b := by
  have hfront : StrictMono (front ++ · : List α → List α) := fun _ _ h => List.append_left_lt h
  exact (hfront.comp_strictMonoOn (strictMonoOn_places hbase hdigit count)).lt_iff_lt ha hb

end

/-! ## Texts and bytes -/

/-- The bytes that encode a text. -/
def utf8 (s : String) : List Nat := s.toByteArray.data.toList.map UInt8.toNat

theorem utf8_append (s t : String) : utf8 (s ++ t) = utf8 s ++ utf8 t := by
  simp [utf8]

theorem utf8_ofList (cs : List Char) :
    utf8 (String.ofList cs) = cs.flatMap (fun c => (String.utf8EncodeChar c).map UInt8.toNat) := by
  simp [utf8, List.utf8Encode, List.map_flatMap]

namespace Identifier

variable {kind : IdentifierKind}

/-- The sixteen bytes of an identifier, the most significant first. -/
def octets (a : Identifier kind) : List Nat := places 256 (fun octet => octet) 16 a.value

theorem hexDigits_eq_places (count n : Nat) :
    hexDigits count n = places 16 Nat.digitChar count n := by
  induction count generalizing n with
  | zero => rfl
  | succ count ih => rw [hexDigits, ih, places]

theorem toList_display (a : Identifier kind) :
    a.display.toList = (label kind).toList ++ places 16 Nat.digitChar 32 a.value := by
  rw [display, String.toList_append, String.toList_ofList, digits, hexDigits_eq_places]

/-- Each digit is one byte. -/
theorem utf8_display (a : Identifier kind) :
    utf8 a.display =
      utf8 (label kind) ++ places 16 (fun k => (Nat.digitChar k).toNat) 32 a.value := by
  have hbyte : ∀ k : Fin 16, (String.utf8EncodeChar (Nat.digitChar k)).map UInt8.toNat =
      [(Nat.digitChar k).toNat] := by
    decide
  rw [display, utf8_append, utf8_ofList, digits, hexDigits_eq_places]
  exact congrArg _ (flatMap_places (fun k hk => hbyte ⟨k, hk⟩) (by decide) _ _)

theorem display_lt_iff (a b : Identifier kind) : a.display < b.display ↔ a.value < b.value := by
  have hdigit : ∀ i j : Fin 16, i < j → Nat.digitChar i < Nat.digitChar j := by decide
  show a.display.toList < b.display.toList ↔ _
  rw [toList_display, toList_display]
  exact append_places_lt_iff _ (by decide) (fun i hi j hj => hdigit ⟨i, hi⟩ ⟨j, hj⟩) a.value_lt
    b.value_lt

theorem utf8_display_lt_iff (a b : Identifier kind) :
    utf8 a.display < utf8 b.display ↔ a.value < b.value := by
  have hdigit : ∀ i j : Fin 16, i < j → (Nat.digitChar i).toNat < (Nat.digitChar j).toNat := by
    decide
  rw [utf8_display, utf8_display]
  exact append_places_lt_iff _ (by decide) (fun i hi j hj => hdigit ⟨i, hi⟩ ⟨j, hj⟩) a.value_lt
    b.value_lt

theorem octets_lt_iff (a b : Identifier kind) : a.octets < b.octets ↔ a.value < b.value := by
  have hlt : ∀ c : Identifier kind, c.value ∈ Set.Iio (256 ^ 16) := fun c => c.value_lt
  unfold octets
  exact (strictMonoOn_places (by decide) (fun _ _ _ _ h => h) 16).lt_iff_lt (hlt a) (hlt b)

theorem display_inj {a b : Identifier kind} : a.display = b.display ↔ a = b := by
  refine ⟨fun h => ?_, congrArg display⟩
  have hnot : ∀ {c d : Identifier kind}, c.display = d.display → ¬ c.value < d.value := by
    intro c d hsame hlt
    have hless := (display_lt_iff c d).mpr hlt
    rw [hsame] at hless
    exact lt_irrefl d.display.toList hless
  have hvalue : a.value = b.value :=
    Nat.le_antisymm (Nat.not_lt.mp (hnot h.symm)) (Nat.not_lt.mp (hnot h))
  cases a
  cases b
  cases hvalue
  rfl

/-! ## Documents -/

theorem mem_hyphenate {sizes : List Nat} {cs : List Char} {c : Char} (h : c ∈ hyphenate sizes cs) :
    c = '-' ∨ c ∈ cs := by
  fun_induction hyphenate sizes cs with
  | case1 size next sizes cs ih =>
    rcases List.mem_append.mp h with h | h
    · exact .inr (List.mem_of_mem_take h)
    · rcases List.mem_cons.mp h with h | h
      · exact .inl h
      · exact (ih h).imp_right List.mem_of_mem_drop
  | case2 => exact .inr h

/-- An identifier is written with nothing to be escaped. -/
theorem toList_write (a : Identifier kind) :
    (Codec.write a).toList = '"' :: (inGroups a.digits ++ ['"']) := by
  have hdigit : ∀ k : Fin 16, Json.escape (Nat.digitChar k) = [Nat.digitChar k] := by decide
  have hescape : (hyphenate groupSizes a.digits).flatMap Json.escape =
      hyphenate groupSizes a.digits := by
    refine (List.flatMap_congr fun c hc => ?_).trans (List.flatMap_singleton' _)
    rcases mem_hyphenate hc with rfl | hc
    · rfl
    · obtain ⟨k, hk, rfl⟩ := digitChar_of_mem_hexDigits hc
      exact hdigit ⟨k, hk⟩
  show (String.ofList ('"' :: a.text.toList.flatMap Json.escape ++ ['"'])).toList = _
  rw [String.toList_ofList, text, String.toList_ofList, hescape, hyphenate_groupSizes]
  rfl

/-- **An identifier is read from a text if it is a string that spells it.** -/
theorem read_eq_some_iff {document : String} {a : Identifier kind} :
    Codec.read document = some a ↔
      ∃ s, Json.parse document = some (.text s) ∧ Spells a s.toList := by
  refine Option.bind_eq_some_iff.trans ⟨?_, ?_⟩
  · rintro ⟨v, hparse, hdecode⟩
    match v, hdecode with
    | .string (some s), hdecode => exact ⟨s, hparse, ofText?_eq_some_iff.mp hdecode⟩
  · rintro ⟨s, hparse, hspells⟩
    exact ⟨_, hparse, ofText?_eq_some_iff.mpr hspells⟩

/-- A string that is written is read as the identifier that it spells. -/
theorem read_write_string_iff {s : String} {a : Identifier kind} :
    Codec.read (Codec.write s) = some a ↔ Spells a s.toList := by
  have hparse : Json.parse (Codec.write s) = some (.text s) := Json.parse_render (wellFormed s)
  rw [read_eq_some_iff, hparse]
  constructor
  · rintro ⟨t, ht, hspells⟩
    cases ht
    exact hspells
  · exact fun hspells => ⟨s, rfl, hspells⟩

end Identifier

/--
**The texts of identifiers follow their order, and are read as they are written.** Two identifiers of
a kind are shown by one text exactly if they are one, and the texts are ordered as the numbers are:
by their characters, by the bytes that encode them, and so are the identifiers by their own
sixteen bytes. This is the order of the groups of any checkpoint, and of any list of groups that was
sorted. The document of an identifier consists of its 32 digits, in lower case and in groups, between
quotes, and is read as the identifier. So is any string that spells it, that is its digits in any
case of the letters: alone, in groups, in braces, or behind the name of the scheme; and it is read
from nothing else.
-/
theorem texts_follow_order :
    (∀ (kind : IdentifierKind) (a b : Identifier kind),
      (a.display = b.display ↔ a = b) ∧ (a.display < b.display ↔ a.value < b.value) ∧
      (utf8 a.display < utf8 b.display ↔ a.value < b.value) ∧
      (a.octets < b.octets ↔ a.value < b.value)) ∧
    (∀ p : Pending, p.allGroups.Pairwise (·.vertex.display < ·.vertex.display)) ∧
    (∀ traversal, (GroupReports.arranged traversal).Pairwise
      (·.vertex.display ≤ ·.vertex.display)) ∧
    ∀ (kind : IdentifierKind) (a : Identifier kind),
      (Codec.write a).toList =
        '"' :: (Identifier.inGroups a.digits ++ ['"']) ∧
      a.digits.length = 32 ∧ a.digits.map Char.toLower = a.digits ∧
      Identifier.ofHexDigits a.digits = some a.value ∧
      Codec.read (Codec.write a) = some a ∧
      (∀ s : String, Codec.read (Codec.write s) = some a ↔ Identifier.Spells a s.toList) ∧
      ∀ document, Codec.read document = some a ↔
        ∃ s, Json.parse document = some (.text s) ∧ Identifier.Spells a s.toList := by
  refine ⟨fun kind a b => ?_, fun p => ?_, fun traversal => ?_, fun kind a => ?_⟩
  · exact ⟨Identifier.display_inj, a.display_lt_iff b, a.utf8_display_lt_iff b, a.octets_lt_iff b⟩
  · exact p.increasing_allGroups.imp (Identifier.display_lt_iff _ _).mpr
  · refine (pairwise_sortBy _ _).imp (fun {g g'} hle hlt => ?_)
    exact Nat.not_lt.mpr hle ((Identifier.display_lt_iff _ _).mp hlt)
  · obtain ⟨hlength, hvalue⟩ := Identifier.digits_eq_iff.mp a.map_toLower_digits
    exact ⟨a.toList_write, hlength, a.map_toLower_digits, hvalue, Codec.read_write trivial,
      fun s => Identifier.read_write_string_iff, fun document => Identifier.read_eq_some_iff⟩

end CheckpointLedger
