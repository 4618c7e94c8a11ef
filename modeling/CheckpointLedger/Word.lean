/-!
# Numbers with a ceiling

Every number a checkpoint carries, an id, a timestamp, a size or a duration, is a
natural number. Two ceilings matter, and both only where numbers leave this
library or pile up:

* what is read, and every sum, stays within 64 bits (`wordMax`);
* what is shown on a gauge or in a span attribute stays within 63 (`longMax`).

Capped addition is what makes totals independent of the order of their parts:
however the parts are grouped, the result is the exact sum, cut once
(`sumCapped_eq`).
-/

namespace CheckpointLedger

/-- The greatest 64-bit number: nothing larger is read, and every sum stops here. -/
def wordMax : Nat := 0xFFFFFFFFFFFFFFFF

/-- The greatest number that a gauge or an attribute shows. -/
def longMax : Nat := 0x7FFFFFFFFFFFFFFF

/-- Addition that stops at `wordMax`. -/
def addCapped (a b : Nat) : Nat := min wordMax (a + b)

/-- The sum of a list. -/
def sumOf (parts : List Nat) : Nat := parts.foldr (· + ·) 0

/-- The sum of a list, stopping at `wordMax`. -/
def sumCapped (parts : List Nat) : Nat := parts.foldl addCapped 0

/-- A number as a gauge shows it: exact up to `longMax`, and `longMax` above. -/
def toLong (n : Nat) : Int := (min n longMax : Nat)

@[simp]
theorem sumOf_nil : sumOf [] = 0 := rfl

@[simp]
theorem sumOf_cons (n : Nat) (rest : List Nat) : sumOf (n :: rest) = n + sumOf rest := rfl

theorem sumOf_append (xs ys : List Nat) : sumOf (xs ++ ys) = sumOf xs + sumOf ys := by
  induction xs with
  | nil => rw [List.nil_append, sumOf_nil, Nat.zero_add]
  | cons n rest ih => rw [List.cons_append, sumOf_cons, sumOf_cons, ih, Nat.add_assoc]

theorem sumOf_perm {xs ys : List Nat} (h : xs.Perm ys) : sumOf xs = sumOf ys :=
  h.foldr_eq' (fun a _ b _ n => Nat.add_left_comm b a n) 0

theorem foldl_addCapped (parts : List Nat) (start : Nat) (h : start ≤ wordMax) :
    parts.foldl addCapped start = min wordMax (start + sumOf parts) := by
  induction parts generalizing start with
  | nil => simp; omega
  | cons n rest ih =>
    rw [List.foldl_cons, ih _ (by unfold addCapped; omega), sumOf_cons, addCapped]
    omega

/-- Stopping at every step and stopping once at the end are the same. -/
theorem sumCapped_eq (parts : List Nat) : sumCapped parts = min wordMax (sumOf parts) := by
  rw [sumCapped, foldl_addCapped parts 0 (by simp [wordMax]), Nat.zero_add]

end CheckpointLedger
