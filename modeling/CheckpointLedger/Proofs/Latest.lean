import CheckpointLedger.Proofs.Figures
import Mathlib.Data.List.Induction

/-!
# The latest records

Beside its entries the history keeps three records, the latest completed checkpoint,
the latest savepoint and the latest failed checkpoint, and the ledger keeps a fourth,
the latest that completed of either kind. Each is replaced when an end comes in that has
a greater id, so what they are seems to depend on what came in when.

It does not. Each is **the record with the greatest id** (`Greatest`) of all ends of its
kind that were ever accepted. That the comparisons find a greatest id is an induction
over the ends; that there is just one record of that id is due to the ledger, which
accepts no second end of a checkpoint.

The ledger compares without regard to the kind, the history within each kind. Since
both find the greatest, and a greatest of the whole is a greatest of one of its parts,
the fourth record is always the newer of the first two.
-/

namespace CheckpointLedger

/-! ## The greatest of a list -/

section Greatest

variable {α : Type} (id : α → Nat)

/-- Of the given records this is the one with the greatest id, if there are any. -/
structure Greatest (xs : List α) (latest : Option α) : Prop where
  some_iff : ∀ x, latest = some x ↔ x ∈ xs ∧ ∀ y ∈ xs, id y ≤ id x
  none_iff : latest = none ↔ xs = []

/-- Of two records the one with the greater id; of one alone, that one. -/
def newer (a b : Option α) : Option α :=
  match a, b with
  | some x, some y => some (if id x < id y then y else x)
  | some x, none => some x
  | none, b => b

variable {id} {xs : List α}

theorem Greatest.unique {a b : Option α} (ha : Greatest id xs a) (hb : Greatest id xs b) :
    a = b := by
  refine Option.ext (fun x => ?_)
  rw [ha.some_iff, hb.some_iff]

theorem Greatest.exists_le {latest : Option α} (h : Greatest id xs latest) {y : α}
    (hy : y ∈ xs) : ∃ x, latest = some x ∧ id y ≤ id x := by
  cases hlatest : latest with
  | none =>
    rw [h.none_iff.mp hlatest] at hy
    exact absurd hy List.not_mem_nil
  | some x => exact ⟨x, rfl, ((h.some_iff x).mp hlatest).2 y hy⟩

/-- If no two ids are the same, a record that none exceeds is the greatest. -/
theorem greatest_of_nodup (hids : (xs.map id).Nodup) {latest : Option α}
    (hsome : ∀ x, latest = some x → x ∈ xs ∧ ∀ y ∈ xs, id y ≤ id x)
    (hnone : latest = none → xs = []) : Greatest id xs latest := by
  constructor
  · intro x
    constructor
    · exact hsome x
    · rintro ⟨hx, hmax⟩
      cases hlatest : latest with
      | none =>
        rw [hnone hlatest] at hx
        exact absurd hx List.not_mem_nil
      | some z =>
        obtain ⟨hz, hmaxz⟩ := hsome z hlatest
        have hid : id z = id x := Nat.le_antisymm (hmax z hz) (hmaxz x hx)
        rw [List.inj_on_of_nodup_map hids hz hx hid]
  · constructor
    · exact hnone
    · intro hnil
      cases hlatest : latest with
      | none => rfl
      | some z =>
        have hz := (hsome z hlatest).1
        rw [hnil] at hz
        exact absurd hz List.not_mem_nil

/-! ## The newest is the greatest -/

theorem newestOf_eq_none (h : newestOf id xs = none) : xs = [] := by
  rcases List.eq_nil_or_concat xs with hnil | ⟨rest, x, hcons⟩
  · exact hnil
  · rw [hcons, List.concat_eq_append, newestOf_concat] at h
    cases hrest : newestOf id rest with
    | none =>
      rw [hrest] at h
      cases h
    | some c =>
      rw [hrest] at h
      rcases Nat.lt_or_ge (id c) (id x) with hlt | hle
      · rw [newest_of_lt id hlt] at h
        cases h
      · rw [newest_of_le id hle] at h
        cases h

theorem newestOf_eq_some {x : α} (h : newestOf id xs = some x) :
    x ∈ xs ∧ ∀ y ∈ xs, id y ≤ id x := by
  induction xs using List.reverseRecOn generalizing x with
  | nil => cases h
  | append_singleton rest z ih =>
    rw [newestOf_concat] at h
    have hlast : z ∈ rest ++ [z] := List.mem_append_right _ List.mem_cons_self
    cases hrest : newestOf id rest with
    | none =>
      -- there was nothing before
      rw [hrest] at h
      obtain rfl : z = x := Option.some.inj h
      refine ⟨hlast, fun y hy => ?_⟩
      rw [newestOf_eq_none hrest, List.nil_append, List.mem_singleton] at hy
      exact Nat.le_of_eq (congrArg id hy)
    | some c =>
      rw [hrest] at h
      obtain ⟨hc, hmax⟩ := ih hrest
      rcases Nat.lt_or_ge (id c) (id z) with hlt | hle
      · rw [newest_of_lt id hlt] at h
        obtain rfl : z = x := Option.some.inj h
        refine ⟨hlast, fun y hy => ?_⟩
        rcases List.mem_append.mp hy with hy | hy
        · exact Nat.le_trans (hmax y hy) (Nat.le_of_lt hlt)
        · exact Nat.le_of_eq (congrArg id (List.mem_singleton.mp hy))
      · rw [newest_of_le id hle] at h
        obtain rfl : c = x := Option.some.inj h
        refine ⟨List.mem_append_left _ hc, fun y hy => ?_⟩
        rcases List.mem_append.mp hy with hy | hy
        · exact hmax y hy
        · rw [List.mem_singleton.mp hy]
          exact hle

/-- One that exceeds all becomes the newest, and else nothing changes. -/
theorem newest_newestOf (xs : List α) (x : α) :
    ((∀ y ∈ xs, id y < id x) → newest id (newestOf id xs) x = some x) ∧
    (¬ (∀ y ∈ xs, id y < id x) → newest id (newestOf id xs) x = newestOf id xs) := by
  cases hnewest : newestOf id xs with
  | none =>
    refine ⟨fun _ => rfl, fun hnot => absurd (fun y hy => ?_) hnot⟩
    rw [newestOf_eq_none hnewest] at hy
    exact absurd hy List.not_mem_nil
  | some z =>
    obtain ⟨hz, hmax⟩ := newestOf_eq_some hnewest
    refine ⟨fun hall => newest_of_lt id (hall z hz), fun hnot => newest_of_le id ?_⟩
    by_contra hlt
    exact hnot (fun y hy => Nat.lt_of_le_of_lt (hmax y hy) (Nat.not_le.mp hlt))

theorem greatest_newestOf (hids : (xs.map id).Nodup) : Greatest id xs (newestOf id xs) :=
  greatest_of_nodup hids (fun _ => newestOf_eq_some) newestOf_eq_none

/-! ## The newer of two greatest -/

theorem newer_eq_none {a b : Option α} (h : newer id a b = none) : a = none ∧ b = none := by
  cases a with
  | none => exact ⟨rfl, h⟩
  | some x => cases b <;> cases h

theorem newer_eq_some {a b : Option α} {x : α} (h : newer id a b = some x) :
    a = some x ∨ b = some x := by
  cases a with
  | none => exact .inr h
  | some c =>
    cases b with
    | none => exact .inl h
    | some d =>
      rw [newer] at h
      by_cases hlt : id c < id d
      · rw [if_pos hlt] at h
        exact .inr h
      · rw [if_neg hlt] at h
        exact .inl h

theorem le_newer_both {c d x : α} (h : newer id (some c) (some d) = some x) :
    id c ≤ id x ∧ id d ≤ id x := by
  have hx : (if id c < id d then d else c) = x := Option.some.inj h
  by_cases hlt : id c < id d
  · rw [if_pos hlt] at hx
    exact hx ▸ ⟨Nat.le_of_lt hlt, Nat.le_refl _⟩
  · rw [if_neg hlt] at hx
    exact hx ▸ ⟨Nat.le_refl _, Nat.not_lt.mp hlt⟩

theorem le_newer {a b : Option α} {x y : α} (h : newer id a b = some x)
    (hy : a = some y ∨ b = some y) : id y ≤ id x := by
  rcases hy with rfl | rfl
  · cases b with
    | none => exact Nat.le_of_eq (congrArg id (Option.some.inj h))
    | some d => exact (le_newer_both h).1
  · cases a with
    | none => exact Nat.le_of_eq (congrArg id (Option.some.inj h))
    | some c => exact (le_newer_both h).2

/-- **The greatest of the whole is the newer one of the greatest of two parts.** -/
theorem greatest_newer (hids : (xs.map id).Nodup) {p : α → Bool} {a b : Option α}
    (ha : Greatest id (xs.filter (fun x => !p x)) a) (hb : Greatest id (xs.filter p) b) :
    Greatest id xs (newer id a b) := by
  have hparts : ∀ y ∈ xs, y ∈ xs.filter (fun x => !p x) ∨ y ∈ xs.filter p := by
    intro y hy
    by_cases hp : p y = true
    · exact .inr (List.mem_filter.mpr ⟨hy, hp⟩)
    · exact .inl (List.mem_filter.mpr ⟨hy, by simp [hp]⟩)
  refine greatest_of_nodup hids (fun x hx => ⟨?_, fun y hy => ?_⟩) (fun hnone => ?_)
  · rcases newer_eq_some hx with h | h
    · exact List.mem_of_mem_filter ((ha.some_iff x).mp h).1
    · exact List.mem_of_mem_filter ((hb.some_iff x).mp h).1
  · -- the greatest of its own part stands between
    rcases hparts y hy with hy | hy
    · obtain ⟨z, hz, hle⟩ := ha.exists_le hy
      exact Nat.le_trans hle (le_newer hx (.inl hz))
    · obtain ⟨z, hz, hle⟩ := hb.exists_le hy
      exact Nat.le_trans hle (le_newer hx (.inr hz))
  · obtain ⟨hleft, hright⟩ := newer_eq_none hnone
    refine List.eq_nil_iff_forall_not_mem.mpr (fun y hy => ?_)
    rcases hparts y hy with hy | hy
    · rw [ha.none_iff.mp hleft] at hy
      exact List.not_mem_nil hy
    · rw [hb.none_iff.mp hright] at hy
      exact List.not_mem_nil hy

end Greatest

/-- The completed checkpoint with the greatest id, of either kind. -/
def History.latest? (h : History) : Option Completed :=
  newer (·.id) h.latestCompleted h.latestSavepoint

namespace Ledger

/-- Where no checkpoint is concluded twice, the latest records are the greatest. -/
theorem Figured.greatest {j : Journal} {l : Ledger} (h : Figured j l)
    (honce : j.concludedIds.Nodup) :
    Greatest (·.id) j.checkpoints l.history.latestCompleted ∧
      Greatest (·.id) j.savepoints l.history.latestSavepoint ∧
      Greatest (·.id) j.failures l.history.latestFailed ∧
      Greatest (·.id) j.completions l.latestCompleted := by
  rw [h.checkpoint, h.savepoint, h.failed, h.latest]
  exact ⟨greatest_newestOf (Journal.nodup_filter_completions honce _),
    greatest_newestOf (Journal.nodup_filter_completions honce _),
    greatest_newestOf (Journal.nodup_failures honce),
    greatest_newestOf (Journal.nodup_completions honce)⟩

/-- The ledger's own record is the newer of the two of the history. -/
theorem latestCompleted_run (config : Config) (ops : List Operation) :
    ((new config).after ops).latestCompleted = ((new config).after ops).history.latest? := by
  have honce : ((new config).journal ops).concludedIds.Nodup := (tracked_run config ops).once
  obtain ⟨hcheckpoint, hsavepoint, -, hlatest⟩ := (figured_run config ops).greatest honce
  exact hlatest.unique (greatest_newer (Journal.nodup_completions honce) hcheckpoint hsavepoint)

/--
**The latest records are those with the greatest ids.** After any run, and whatever room
the history has, its latest completed checkpoint is the one with the greatest id of all
completions that were accepted and were no savepoints, its latest savepoint that of all
that were, and its latest failed checkpoint that of all failures that were accepted; there
is none exactly if there was no such end. The ledger's own latest record is the one with
the greatest id of all completions, and so the newer of the first two.
-/
theorem latest_are_greatest (config : Config) (ops : List Operation) :
    let j := (new config).journal ops
    let l := (new config).after ops
    Greatest (·.id) j.checkpoints l.history.latestCompleted ∧
    Greatest (·.id) j.savepoints l.history.latestSavepoint ∧
    Greatest (·.id) j.failures l.history.latestFailed ∧
    Greatest (·.id) j.completions l.latestCompleted ∧
    l.latestCompleted = newer (·.id) l.history.latestCompleted l.history.latestSavepoint := by
  intro j l
  have honce : j.concludedIds.Nodup := (tracked_run config ops).once
  obtain ⟨hcheckpoint, hsavepoint, hfailed, hlatest⟩ := (figured_run config ops).greatest honce
  exact ⟨hcheckpoint, hsavepoint, hfailed, hlatest, latestCompleted_run config ops⟩

end Ledger

end CheckpointLedger
