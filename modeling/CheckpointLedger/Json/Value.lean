/-!
# JSON documents

A document as a tree. Two leaves keep more than a plain value would, because what
a reader may do with them depends on how they were written:

* a **numeral** keeps its parts: an integer is a numeral without fraction and
  without exponent, and `-0` is not `0`;
* a **string** is `none` when its escapes leave half of a surrogate pair alone.
  Such a literal is well formed, so a document may hold it where nobody looks,
  but it stands for no text.
-/

namespace CheckpointLedger

/-- A number as it is written. -/
structure Numeral where
  /-- Whether it starts with a minus sign. -/
  negative : Bool
  /-- The digits before the point, as a number. -/
  whole : Nat
  /-- The digits after the point; there is no point without digits. -/
  fraction : List Char
  /-- The power of ten written after `e`. -/
  exponent : Option Int
deriving DecidableEq, Repr

namespace Numeral

/-- The numeral of a natural number. -/
def ofNat (n : Nat) : Numeral := ⟨false, n, [], none⟩

/-- The numeral of an integer. -/
def ofInt (n : Int) : Numeral := ⟨n < 0, n.natAbs, [], none⟩

/-- The integer that a numeral without fraction and exponent writes. -/
def toInt? (n : Numeral) : Option Int :=
  match n.fraction, n.exponent with
  | [], none => some (if n.negative then -n.whole else n.whole)
  | _, _ => none

end Numeral

/-- A JSON document. -/
inductive Json where
  /-- The value `null`. -/
  | null
  /-- A truth value. -/
  | bool (b : Bool)
  /-- A number, as written. -/
  | number (n : Numeral)
  /-- A string, or `none` for a literal that stands for no text. -/
  | string (content : Option String)
  /-- An array. -/
  | array (items : List Json)
  /-- An object: its members as written, repeated names included. -/
  | object (members : List (Option String × Json))
deriving Repr

namespace Json

instance : Inhabited Json := ⟨null⟩

/-- A string value. -/
def text (s : String) : Json := string (some s)

/-- A natural number. -/
def nat (n : Nat) : Json := number (.ofNat n)

/-- An integer. -/
def int (n : Int) : Json := number (.ofInt n)

/-- An object with the given members. -/
def ofMembers (members : List (String × Json)) : Json :=
  object (members.map (fun m => (some m.1, m.2)))

/-- The value of the last member of that name. -/
def member? (name : String) : Json → Option Json
  | object members => (members.reverse.find? (·.1 == some name)).map Prod.snd
  | _ => none

end Json

end CheckpointLedger
