/-!
# Maps in key order

A map kept as its list of bindings, strictly increasing in the key. The order is
part of the type, so two maps with the same bindings are equal, and whatever is
folded over a map (a sum, a list of attributes) cannot depend on the order in
which the bindings arrived.

One operation does the work: `alter` visits the place a key belongs to and puts
there what a function makes of the binding found. `insert`, `erase` and
`ofList` are uses of it.
-/

namespace CheckpointLedger

universe u v w

variable {κ : Type u} {α : Type v} {β : Type w}

/-- Bindings with strictly increasing keys. -/
def KeysIncrease [Ord κ] (bindings : List (κ × α)) : Prop :=
  bindings.Pairwise (fun a b => compare a.1 b.1 = .lt)

/-- A finite map, as its bindings in key order. -/
structure OrderedMap (κ : Type u) (α : Type v) [Ord κ] where
  /-- The bindings, in key order. -/
  entries : List (κ × α)
  /-- No key comes twice, and none comes late. -/
  increasing : KeysIncrease entries

namespace OrderedMap

/-- The value bound to `key` in a list of bindings, if any. -/
def findIn [Ord κ] (key : κ) : List (κ × α) → Option α
  | [] => none
  | (k, value) :: rest =>
    match compare key k with
    | .eq => some value
    | _ => findIn key rest

/-- What `alter` does to the list of bindings. -/
def alterIn [Ord κ] (key : κ) (change : Option α → Option α) : List (κ × α) → List (κ × α)
  | [] => ((change none).map (key, ·)).toList
  | (k, value) :: rest =>
    match compare key k with
    | .lt => ((change none).map (key, ·)).toList ++ (k, value) :: rest
    | .eq => ((change (some value)).map (k, ·)).toList ++ rest
    | .gt => (k, value) :: alterIn key change rest

theorem mem_alterIn [Ord κ] {key : κ} {change : Option α → Option α} {bindings : List (κ × α)}
    {b : κ × α} (h : b ∈ alterIn key change bindings) :
    b.1 = key ∨ ∃ c ∈ bindings, c.1 = b.1 := by
  induction bindings with
  | nil =>
    simp only [alterIn, Option.mem_toList, Option.map_eq_some_iff] at h
    obtain ⟨_, _, rfl⟩ := h
    exact .inl rfl
  | cons head rest ih =>
    obtain ⟨k, value⟩ := head
    rw [alterIn] at h
    split at h
    · simp only [List.mem_append, Option.mem_toList, Option.map_eq_some_iff] at h
      rcases h with ⟨_, _, rfl⟩ | h
      · exact .inl rfl
      · exact .inr ⟨b, h, rfl⟩
    · simp only [List.mem_append, Option.mem_toList, Option.map_eq_some_iff] at h
      rcases h with ⟨_, _, rfl⟩ | h
      · exact .inr ⟨_, List.mem_cons_self, rfl⟩
      · exact .inr ⟨b, List.mem_cons_of_mem _ h, rfl⟩
    · rcases List.mem_cons.mp h with rfl | h
      · exact .inr ⟨_, List.mem_cons_self, rfl⟩
      · rcases ih h with h | ⟨c, hc, hb⟩
        · exact .inl h
        · exact .inr ⟨c, List.mem_cons_of_mem _ hc, hb⟩

/-- Altering one key leaves the keys increasing. -/
theorem keysIncrease_alterIn [Ord κ] [Std.TransOrd κ] (key : κ) (change : Option α → Option α)
    {bindings : List (κ × α)} (h : KeysIncrease bindings) :
    KeysIncrease (alterIn key change bindings) := by
  induction bindings with
  | nil => cases hc : change none <;> simp [alterIn, hc, KeysIncrease]
  | cons head rest ih =>
    obtain ⟨k, value⟩ := head
    have hhead := (List.pairwise_cons.mp h).1
    have hrest : KeysIncrease rest := (List.pairwise_cons.mp h).2
    rw [alterIn]
    split
    · rename_i hlt
      cases change none with
      | none => exact h
      | some new =>
        refine List.pairwise_cons.mpr ⟨fun b hb => ?_, h⟩
        rcases List.mem_cons.mp hb with rfl | hb
        · exact hlt
        · exact Std.TransCmp.lt_trans hlt (hhead b hb)
    · cases change (some value) with
      | none => exact hrest
      | some new => exact List.pairwise_cons.mpr ⟨hhead, hrest⟩
    · rename_i hgt
      refine List.pairwise_cons.mpr ⟨fun b hb => ?_, ih hrest⟩
      rcases mem_alterIn hb with hb | hb
      · rw [hb]; exact Std.OrientedCmp.gt_iff_lt.mp hgt
      · obtain ⟨c, hc, hcb⟩ := hb
        rw [← hcb]; exact hhead c hc

/-- The map without bindings. -/
def empty [Ord κ] : OrderedMap κ α := ⟨[], List.Pairwise.nil⟩

instance [Ord κ] : Inhabited (OrderedMap κ α) := ⟨empty⟩

instance [Ord κ] [DecidableEq κ] [DecidableEq α] : DecidableEq (OrderedMap κ α) := fun a b =>
  if h : a.entries = b.entries then
    isTrue (by cases a; cases b; cases h; rfl)
  else
    isFalse (fun e => h (congrArg entries e))

/-- The value bound to a key. -/
def find? [Ord κ] (m : OrderedMap κ α) (key : κ) : Option α := findIn key m.entries

/-- Whether a key is bound. -/
def contains [Ord κ] (m : OrderedMap κ α) (key : κ) : Bool := (m.find? key).isSome

/-- The number of bindings. -/
def size [Ord κ] (m : OrderedMap κ α) : Nat := m.entries.length

/-- The keys, in order. -/
def keys [Ord κ] (m : OrderedMap κ α) : List κ := m.entries.map Prod.fst

/-- The values, in the order of their keys. -/
def values [Ord κ] (m : OrderedMap κ α) : List α := m.entries.map Prod.snd

/-- Replaces what is bound to `key`, where `none` stands for no binding. -/
def alter [Ord κ] [Std.TransOrd κ] (m : OrderedMap κ α) (key : κ)
    (change : Option α → Option α) : OrderedMap κ α :=
  ⟨alterIn key change m.entries, keysIncrease_alterIn key change m.increasing⟩

/-- Binds `key` to `value`, whatever it was bound to. -/
def insert [Ord κ] [Std.TransOrd κ] (m : OrderedMap κ α) (key : κ) (value : α) :
    OrderedMap κ α :=
  m.alter key (fun _ => some value)

/-- Removes the binding of `key`. -/
def erase [Ord κ] [Std.TransOrd κ] (m : OrderedMap κ α) (key : κ) : OrderedMap κ α :=
  m.alter key (fun _ => none)

/-- Changes the value bound to `key`, if there is one. -/
def modify [Ord κ] [Std.TransOrd κ] (m : OrderedMap κ α) (key : κ) (change : α → α) :
    OrderedMap κ α :=
  m.alter key (Option.map change)

/-- Binds every pair of a list, the later of two equal keys winning. -/
def insertAll [Ord κ] [Std.TransOrd κ] (m : OrderedMap κ α) (bindings : List (κ × α)) :
    OrderedMap κ α :=
  bindings.foldl (fun m b => m.insert b.1 b.2) m

/-- The map of a list of bindings, the later of two equal keys winning. -/
def ofList [Ord κ] [Std.TransOrd κ] (bindings : List (κ × α)) : OrderedMap κ α :=
  empty.insertAll bindings

/-- Changes every value and keeps the keys. -/
def map [Ord κ] (f : α → β) (m : OrderedMap κ α) : OrderedMap κ β :=
  ⟨m.entries.map (fun b => (b.1, f b.2)),
    by simpa [KeysIncrease, List.pairwise_map] using m.increasing⟩

end OrderedMap

end CheckpointLedger
