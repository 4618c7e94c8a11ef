import CheckpointLedger.Json.Value
import CheckpointLedger.Word

/-!
# Reading binary64 numbers

A numeral that is read as a binary64 number goes through three roundings, each to
the nearest and halves to even:

* its leading digits, as many as fit 64 bits, are one integer, the significand,
  which is converted; whole digits beyond them only raise the exponent, digits
  after the point beyond them are dropped;
* a power of ten up to `10^308` is converted;
* the one is multiplied or divided by the other.

Numerals of up to 15 digits with a small exponent are exact in the first two and
so are read as the nearest number. A numeral too large to be represented is
refused; one too small is zero, with its sign.
-/

namespace CheckpointLedger

namespace Double

/-- The binary64 number nearest to a natural number below `2^64`. -/
def ofNat (n : Nat) : Float := (UInt64.ofNat n).toFloat

/-- The greatest exponent of a power of ten that can be represented. -/
def maxPower : Nat := 308

/-- The binary64 number nearest to a power of ten. -/
def powerOfTen (n : Nat) : Float := Float.ofScientific 1 false n

/-- Divides by `10^n`, by `10^308` at a time, until nothing is left. -/
def scaleDown (x : Float) (n : Nat) : Float :=
  if n ≤ maxPower then x / powerOfTen n
  else if x == 0 then x
  else scaleDown (x / powerOfTen maxPower) (n - maxPower)
termination_by n
decreasing_by simp_all [maxPower]; omega

/-- Multiplies by `10^n`, unless the result is too large. -/
def scaleUp (x : Float) (n : Nat) : Option Float :=
  if n ≤ maxPower then
    let y := x * powerOfTen n
    if y.isInf then none else some y
  else if x == 0 then some x
  else none

/--
Appends digits to a number for as long as it fits 64 bits: the number, and how
many digits were taken.
-/
def absorb (n taken : Nat) : List Char → Nat × Nat
  | [] => (n, taken)
  | c :: rest =>
    let next := 10 * n + (c.toNat - 48)
    if next ≤ wordMax then absorb next (taken + 1) rest else (n, taken)

/-- The magnitude of a numeral. -/
def magnitude? (n : Numeral) : Option Float :=
  let whole := Nat.toDigits 10 n.whole
  let (leading, taken) := absorb 0 0 whole
  let (significand, places) := absorb leading 0 n.fraction
  let power : Int := (whole.length - taken : Nat) - (places : Int) + n.exponent.getD 0
  if power < 0 then some (scaleDown (ofNat significand) power.natAbs)
  else scaleUp (ofNat significand) power.natAbs

/-- The binary64 number that a numeral is read as. -/
def ofNumeral? (n : Numeral) : Option Float :=
  (magnitude? n).map (fun x => if n.negative then -x else x)

/-- The sixteen hexadecimal digits of the bits, which tell any two numbers apart. -/
def bitDigits (x : Float) : String :=
  let digits := Nat.toDigits 16 x.toBits.toNat
  String.ofList (List.replicate (16 - digits.length) '0' ++ digits)

end Double

end CheckpointLedger
