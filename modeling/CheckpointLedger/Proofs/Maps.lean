import CheckpointLedger.OrderedMap
import Mathlib.Data.List.Nodup

/-!
# What an ordered map holds

`OrderedMap.alter` walks down the bindings to the place of a key. Here is what
comes of it, said twice over:

* by lookup: altering one key changes what is found under that key and nothing
  else (`find?_alter_self`, `find?_alter_of_ne`);
* by the bindings themselves, for the two uses of which the order matters: a key
  above all others goes to the end (`entries_insert_last`), and removing a key
  leaves the others where they are (`entries_erase`).

The two views meet in `find?_eq_some_iff`: a binding is found exactly if it is
there. So a map is known when it is known what is found in it (`ext_find?`).
-/

namespace CheckpointLedger

namespace OrderedMap

universe u v w

theorem eq_of_entries {κ : Type u} {α : Type v} [Ord κ] {m n : OrderedMap κ α}
    (h : m.entries = n.entries) : m = n := by
  cases m
  cases n
  cases h
  rfl

section Lookup

variable {κ : Type u} {α : Type v} {β : Type w} [Ord κ] [Std.LawfulEqOrd κ]

theorem ne_of_compare_lt {a b : κ} (h : compare a b = .lt) : a ≠ b := by
  intro he
  rw [he, (Std.ReflCmp.compare_self : compare b b = .eq)] at h
  exact Ordering.noConfusion h

theorem ne_of_compare_gt {a b : κ} (h : compare a b = .gt) : a ≠ b := by
  intro he
  rw [he, (Std.ReflCmp.compare_self : compare b b = .eq)] at h
  exact Ordering.noConfusion h

theorem findIn_cons_self (key : κ) (value : α) (rest : List (κ × α)) :
    findIn key ((key, value) :: rest) = some value := by
  rw [findIn, (Std.ReflCmp.compare_self : compare key key = .eq)]

theorem findIn_cons_of_ne {key k : κ} (h : key ≠ k) (value : α) (rest : List (κ × α)) :
    findIn key ((k, value) :: rest) = findIn key rest := by
  rw [findIn]
  split
  · rename_i he
    exact absurd (Std.LawfulEqCmp.eq_of_compare he) h
  · rfl

/-- A key that no binding has is not found. -/
theorem findIn_eq_none {key : κ} {bindings : List (κ × α)} (h : ∀ b ∈ bindings, b.1 ≠ key) :
    findIn key bindings = none := by
  induction bindings with
  | nil => rfl
  | cons head rest ih =>
    rw [findIn_cons_of_ne (h head List.mem_cons_self).symm]
    exact ih (fun b hb => h b (List.mem_cons_of_mem _ hb))

/-- The first of increasing keys does not come again. -/
theorem head_ne_of_mem {key : κ} {value : α} {rest : List (κ × α)}
    (h : KeysIncrease ((key, value) :: rest)) : ∀ b ∈ rest, b.1 ≠ key :=
  fun b hb => (ne_of_compare_lt ((List.pairwise_cons.mp h).1 b hb)).symm

theorem findIn_alterIn_of_ne {key other : κ} (hne : other ≠ key)
    (change : Option α → Option α) (bindings : List (κ × α)) :
    findIn other (alterIn key change bindings) = findIn other bindings := by
  -- what is put in has the other key, so nobody who looks for this one sees it
  have hnew : ∀ (new : Option α) (rest : List (κ × α)),
      findIn other ((new.map (key, ·)).toList ++ rest) = findIn other rest := by
    intro new rest
    cases new with
    | none => rfl
    | some value => exact findIn_cons_of_ne hne value rest
  induction bindings with
  | nil =>
    have := hnew (change none) []
    rwa [List.append_nil] at this
  | cons head rest ih =>
    obtain ⟨k, value⟩ := head
    rw [alterIn]
    split
    · exact hnew _ _
    · rename_i he
      obtain rfl := Std.LawfulEqCmp.eq_of_compare he
      rw [hnew, findIn_cons_of_ne hne]
    · rw [findIn, findIn, ih]

/-- **A binding is found exactly if it is there.** -/
theorem find?_eq_some_iff (m : OrderedMap κ α) (key : κ) (value : α) :
    m.find? key = some value ↔ (key, value) ∈ m.entries := by
  obtain ⟨bindings, h⟩ := m
  show findIn key bindings = some value ↔ (key, value) ∈ bindings
  induction bindings with
  | nil => simp [findIn]
  | cons head rest ih =>
    obtain ⟨k, first⟩ := head
    by_cases hk : key = k
    · subst hk
      rw [findIn_cons_self, List.mem_cons]
      constructor
      · intro he
        exact .inl (by rw [Option.some.inj he])
      · rintro (he | hmem)
        · rw [(Prod.mk.inj he).2]
        · -- the key does not come a second time
          exact absurd rfl (head_ne_of_mem h _ hmem)
    · rw [findIn_cons_of_ne hk, ih (List.pairwise_cons.mp h).2, List.mem_cons]
      constructor
      · exact .inr
      · rintro (he | hmem)
        · exact absurd (Prod.mk.inj he).1 hk
        · exact hmem

/-- Changing every value changes what is found. -/
theorem find?_map (f : α → β) (m : OrderedMap κ α) (key : κ) :
    (m.map f).find? key = (m.find? key).map f := by
  refine Option.ext (fun value => ?_)
  rw [find?_eq_some_iff, Option.map_eq_some_iff]
  constructor
  · intro h
    obtain ⟨⟨k, a⟩, hmem, he⟩ := List.mem_map.mp h
    obtain ⟨rfl, rfl⟩ := Prod.mk.inj he
    exact ⟨a, (m.find?_eq_some_iff k a).mpr hmem, rfl⟩
  · rintro ⟨a, ha, rfl⟩
    exact List.mem_map.mpr ⟨_, (m.find?_eq_some_iff key a).mp ha, rfl⟩

/-! ## The keys -/

theorem nodup_keys (m : OrderedMap κ α) : m.keys.Nodup :=
  List.pairwise_map.mpr (m.increasing.imp ne_of_compare_lt)

/-- The keys are what something is found under. -/
theorem mem_keys_iff (m : OrderedMap κ α) (key : κ) :
    key ∈ m.keys ↔ ∃ value, m.find? key = some value := by
  constructor
  · intro h
    obtain ⟨⟨k, value⟩, hmem, rfl⟩ := List.mem_map.mp h
    exact ⟨value, (m.find?_eq_some_iff k value).mpr hmem⟩
  · rintro ⟨value, h⟩
    exact List.mem_map.mpr ⟨_, (m.find?_eq_some_iff key value).mp h, rfl⟩

theorem not_mem_keys_iff (m : OrderedMap κ α) (key : κ) :
    key ∉ m.keys ↔ m.find? key = none := by
  rw [mem_keys_iff, ← Option.isSome_iff_exists, Option.not_isSome_iff_eq_none]

end Lookup

theorem nodup_entries {κ : Type u} {α : Type v} [Ord κ] [Std.LawfulEqOrd κ] (m : OrderedMap κ α) :
    m.entries.Nodup :=
  m.increasing.imp (fun hlt he => ne_of_compare_lt hlt (congrArg Prod.fst he))

/-- **Maps in which the same is found are the same.** -/
theorem ext_find? {κ : Type u} {α : Type v} [Ord κ] [Std.TransOrd κ] [Std.LawfulEqOrd κ]
    {m n : OrderedMap κ α} (h : ∀ key, m.find? key = n.find? key) : m = n := by
  have hperm : m.entries.Perm n.entries := by
    rw [List.perm_ext_iff_of_nodup m.nodup_entries n.nodup_entries]
    rintro ⟨key, value⟩
    rw [← find?_eq_some_iff, ← find?_eq_some_iff, h]
  -- there is one way only to put the bindings in order
  refine eq_of_entries (hperm.eq_of_pairwise (fun a b _ _ hab hba => ?_) m.increasing n.increasing)
  exact absurd hba (Std.OrientedCmp.not_lt_of_lt hab)

section Change

variable {κ : Type u} {α : Type v} [Ord κ] [Std.TransOrd κ]

/-- A key above all others goes to the end. -/
theorem entries_insert_last (m : OrderedMap κ α) {key : κ} (value : α)
    (h : ∀ b ∈ m.entries, compare b.1 key = .lt) :
    (m.insert key value).entries = m.entries ++ [(key, value)] := by
  obtain ⟨bindings, hinc⟩ := m
  replace h : ∀ b ∈ bindings, compare b.1 key = .lt := h
  show alterIn key (fun _ => some value) bindings = bindings ++ [(key, value)]
  -- the walk never stops before the end, in whatever order the bindings are
  clear hinc
  induction bindings with
  | nil => rfl
  | cons head rest ih =>
    obtain ⟨k, first⟩ := head
    have hgt : compare key k = .gt := Std.OrientedCmp.gt_iff_lt.mpr (h _ List.mem_cons_self)
    rw [alterIn, hgt]
    show (k, first) :: alterIn key _ rest = (k, first) :: (rest ++ [(key, value)])
    rw [ih (fun b hb => h b (List.mem_cons_of_mem _ hb))]

/-- Bindings of greater and greater keys go to the end one after the other. -/
theorem entries_insertAll {m : OrderedMap κ α} {bindings : List (κ × α)}
    (h : KeysIncrease (m.entries ++ bindings)) :
    (m.insertAll bindings).entries = m.entries ++ bindings := by
  induction bindings generalizing m with
  | nil => exact (List.append_nil _).symm
  | cons b rest ih =>
    have hlast := m.entries_insert_last b.2
      (fun a ha => (List.pairwise_append.mp h).2.2 a ha b List.mem_cons_self)
    show ((m.insert b.1 b.2).insertAll rest).entries = _
    rw [List.append_cons] at h
    rw [ih (hlast ▸ h), hlast, List.append_assoc]
    rfl

/-- A map is made up of its bindings again. -/
theorem ofList_entries (m : OrderedMap κ α) : ofList m.entries = m :=
  eq_of_entries (entries_insertAll (m := empty) m.increasing)

variable [Std.LawfulEqOrd κ]

/-- Whatever stands behind a greater key is different. -/
theorem ne_of_lt_head {key k : κ} {value : α} {rest : List (κ × α)}
    (h : KeysIncrease ((k, value) :: rest)) (hlt : compare key k = .lt) :
    ∀ b ∈ (k, value) :: rest, b.1 ≠ key := by
  intro b hb
  rcases List.mem_cons.mp hb with rfl | hb
  · exact (ne_of_compare_lt hlt).symm
  · exact (ne_of_compare_lt
      (Std.TransCmp.lt_trans hlt ((List.pairwise_cons.mp h).1 b hb))).symm

theorem findIn_alterIn_self {key : κ} {change : Option α → Option α} {bindings : List (κ × α)}
    (h : KeysIncrease bindings) :
    findIn key (alterIn key change bindings) = change (findIn key bindings) := by
  have hnew : ∀ rest : List (κ × α), findIn key rest = none → ∀ new : Option α,
      findIn key ((new.map (key, ·)).toList ++ rest) = new := by
    intro rest hrest new
    cases new with
    | none => exact hrest
    | some value => exact findIn_cons_self key value rest
  induction bindings with
  | nil =>
    have := hnew [] rfl (change none)
    rwa [List.append_nil] at this
  | cons head rest ih =>
    obtain ⟨k, value⟩ := head
    rw [alterIn]
    split
    · -- the place was passed, so the key was not bound
      rename_i hlt
      have hnone := findIn_eq_none (ne_of_lt_head h hlt)
      rw [hnew _ hnone, hnone]
    · rename_i he
      obtain rfl := Std.LawfulEqCmp.eq_of_compare he
      rw [hnew _ (findIn_eq_none (head_ne_of_mem h)), findIn_cons_self]
    · rename_i hgt
      have hne := ne_of_compare_gt hgt
      rw [findIn_cons_of_ne hne, findIn_cons_of_ne hne, ih (List.pairwise_cons.mp h).2]

/-! ## By lookup -/

theorem find?_alter_self (m : OrderedMap κ α) (key : κ) (change : Option α → Option α) :
    (m.alter key change).find? key = change (m.find? key) :=
  findIn_alterIn_self m.increasing

theorem find?_alter_of_ne (m : OrderedMap κ α) {key other : κ} (hne : other ≠ key)
    (change : Option α → Option α) : (m.alter key change).find? other = m.find? other :=
  findIn_alterIn_of_ne hne change m.entries

variable [DecidableEq κ]

/-- What is found after one binding was put in. -/
theorem find?_insert (m : OrderedMap κ α) (key other : κ) (value : α) :
    (m.insert key value).find? other = if other = key then some value else m.find? other := by
  by_cases h : other = key
  · rw [if_pos h, h]
    exact find?_alter_self m key _
  · rw [if_neg h]
    exact find?_alter_of_ne m h _

/-- What is found after one value was changed. -/
theorem find?_modify (m : OrderedMap κ α) (key other : κ) (change : α → α) :
    (m.modify key change).find? other =
      if other = key then (m.find? other).map change else m.find? other := by
  by_cases h : other = key
  · rw [if_pos h, h]
    exact find?_alter_self m key _
  · rw [if_neg h]
    exact find?_alter_of_ne m h _

/-- What is found when every key of a list was given the same value. -/
theorem find?_insertAll_const (keys : List κ) (value : α) (m : OrderedMap κ α) (key : κ) :
    (m.insertAll (keys.map (·, value))).find? key =
      if key ∈ keys then some value else m.find? key := by
  induction keys generalizing m with
  | nil => rw [if_neg List.not_mem_nil]; rfl
  | cons k rest ih =>
    have hstep : m.insertAll ((k :: rest).map (·, value)) =
        (m.insert k value).insertAll (rest.map (·, value)) := rfl
    rw [hstep, ih, find?_insert]
    by_cases hk : key = k
    · rw [if_pos hk, ite_self, if_pos (List.mem_cons.mpr (.inl hk))]
    · rw [if_neg hk]
      by_cases hr : key ∈ rest
      · rw [if_pos hr, if_pos (List.mem_cons_of_mem _ hr)]
      · rw [if_neg hr, if_neg (by simp [hk, hr])]

/-- What is found after bindings were put in is the last of them, or what was found before. -/
theorem find?_insertAll (m : OrderedMap κ α) (bindings : List (κ × α)) (key : κ) :
    (m.insertAll bindings).find? key =
      ((bindings.reverse.find? (·.1 = key)).map Prod.snd).or (m.find? key) := by
  induction bindings generalizing m with
  | nil => rfl
  | cons b rest ih =>
    show ((m.insert b.1 b.2).insertAll rest).find? key = _
    rw [ih, find?_insert, List.reverse_cons, List.find?_append]
    cases rest.reverse.find? (·.1 = key) with
    | some last => rfl
    | none =>
      by_cases hkey : key = b.1
      · simp [hkey]
      · simp [hkey, Ne.symm hkey]

section Distinct

variable {bindings : List (κ × α)} (h : (bindings.map Prod.fst).Nodup)

include h

/-- Where no key comes twice, nothing that is put in is overwritten. -/
theorem find?_ofList (key : κ) (value : α) :
    (ofList bindings).find? key = some value ↔ (key, value) ∈ bindings := by
  rw [ofList, find?_insertAll, show (empty : OrderedMap κ α).find? key = none from rfl,
    Option.or_none, Option.map_eq_some_iff]
  constructor
  · rintro ⟨⟨k, v⟩, hfind, rfl⟩
    have hkey : k = key := by simpa using List.find?_some hfind
    rw [← hkey]
    exact List.mem_reverse.mp (List.mem_of_find?_eq_some hfind)
  · intro hmem
    cases hfind : bindings.reverse.find? (·.1 = key) with
    | none => simpa using List.find?_eq_none.mp hfind _ (List.mem_reverse.mpr hmem)
    | some b =>
      have hb := List.mem_reverse.mp (List.mem_of_find?_eq_some hfind)
      have hkey : b.1 = key := by simpa using List.find?_some hfind
      rw [List.inj_on_of_nodup_map h hb hmem hkey]
      exact ⟨_, rfl, rfl⟩

/-- **Then the map has the bindings that it was made of.** -/
theorem entries_ofList_perm : (ofList bindings).entries.Perm bindings := by
  rw [List.perm_ext_iff_of_nodup (nodup_entries _) (List.Nodup.of_map Prod.fst h)]
  rintro ⟨key, value⟩
  rw [← find?_eq_some_iff, find?_ofList h]

/-- Nor does it matter in which order they were put in. -/
theorem ofList_eq_of_perm {reordered : List (κ × α)} (hperm : reordered.Perm bindings) :
    ofList reordered = ofList bindings := by
  have hreordered : (reordered.map Prod.fst).Nodup := (hperm.map Prod.fst).nodup_iff.mpr h
  refine ext_find? (fun key => Option.ext (fun value => ?_))
  rw [find?_ofList h, find?_ofList hreordered, hperm.mem_iff]

end Distinct

/-! ## By the bindings -/

/-- Removing a key leaves the other bindings where they are. -/
theorem entries_erase (m : OrderedMap κ α) (key : κ) :
    (m.erase key).entries = m.entries.filter (fun b => b.1 ≠ key) := by
  obtain ⟨bindings, h⟩ := m
  show alterIn key (fun _ => none) bindings = bindings.filter (fun b => b.1 ≠ key)
  have keep : ∀ rest : List (κ × α), (∀ b ∈ rest, b.1 ≠ key) →
      rest.filter (fun b => b.1 ≠ key) = rest := by
    intro rest hrest
    exact List.filter_eq_self.mpr (fun b hb => decide_eq_true (hrest b hb))
  induction bindings with
  | nil => rfl
  | cons head rest ih =>
    obtain ⟨k, value⟩ := head
    rw [alterIn]
    split
    · rename_i hlt
      exact (keep _ (ne_of_lt_head h hlt)).symm
    · rename_i he
      obtain rfl := Std.LawfulEqCmp.eq_of_compare he
      rw [List.filter_cons_of_neg (by simp), keep rest (head_ne_of_mem h)]
      rfl
    · rename_i hgt
      have hne := (ne_of_compare_gt hgt).symm
      rw [List.filter_cons_of_pos (by simpa using hne), ih (List.pairwise_cons.mp h).2]

end Change

end OrderedMap

end CheckpointLedger
