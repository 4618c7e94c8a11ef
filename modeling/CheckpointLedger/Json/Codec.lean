import CheckpointLedger.Json.Double
import CheckpointLedger.Json.Printer
import CheckpointLedger.Json.Reader
import CheckpointLedger.OrderedMap
import CheckpointLedger.Word

/-!
# Values as JSON

How a type is written as a document and read back. Three kinds of type share one
rule each, so that what holds of one record or choice holds of all:

* a **record** is an object with its fields as members, in any order and among
  members of other names; or an array of its fields in the order of declaration;
* a **choice** is the name of a case as a string, or an object whose one member
  bears that name and holds what the case carries, `null` if it carries nothing;
* a **map** is an object whose members are its bindings.

A field may be left out of an object when its absence means something: nothing,
for an optional value, or the default, for a field that has one.
-/

namespace CheckpointLedger

/-- A type with a JSON form. -/
class Codec (α : Type) where
  /-- The document of a value. -/
  encode : α → Json
  /-- The value of a document. -/
  decode : Json → Option α

export Codec (encode decode)

namespace Codec

/-- A number is an integer without fraction and exponent that fits 64 bits. -/
instance : Codec Nat where
  encode := .nat
  decode
    | .number n =>
      if n.negative = false ∧ n.fraction = [] ∧ n.exponent = none ∧ n.whole ≤ wordMax then
        some n.whole
      else none
    | _ => none

instance : Codec Bool where
  encode := .bool
  decode
    | .bool b => some b
    | _ => none

instance : Codec String where
  encode := .text
  decode
    | .string s => s
    | _ => none

/--
Read from any numeral. What is written is for looking at and is not read back: it shows the bits,
which lose nothing, in place of the shortest numeral that is read as the same number.
-/
instance : Codec Float where
  encode x := .ofMembers [("f64", .text (Double.bitDigits x))]
  decode
    | .number n => Double.ofNumeral? n
    | _ => none

/-- A value that may be missing: `null` when it is. -/
instance {α : Type} [Codec α] : Codec (Option α) where
  encode
    | none => .null
    | some a => encode a
  decode
    | .null => some none
    | v => (decode v).map some

instance {α : Type} [Codec α] : Codec (List α) where
  encode items := .array (items.map encode)
  decode
    | .array items => items.mapM decode
    | _ => none

/-- The binding that a member of an object writes. -/
def binding? {α : Type} [Codec α] (m : Option String × Json) : Option (String × α) :=
  match m with
  | (some name, v) => (decode v).map (name, ·)
  | (none, _) => none

/-- Of members with one name the last counts, though all have to be readable. -/
instance {α : Type} [Codec α] : Codec (OrderedMap String α) where
  encode m := .ofMembers (m.entries.map (fun b => (b.1, encode b.2)))
  decode
    | .object members => (members.mapM binding?).map .ofList
    | _ => none

/-- The value that a text writes. -/
def read {α : Type} [Codec α] (text : String) : Option α := (Json.parse text).bind decode

/-- The text of a value. -/
def write {α : Type} [Codec α] (a : α) : String := (encode a).render

end Codec

/-! ## Records -/

/-- What the absence of a field means. -/
inductive Absence where
  /-- The record cannot be read. -/
  | forbidden
  /-- The optional value is not there. -/
  | nothing
  /-- The field has its default. -/
  | default
deriving DecidableEq, Repr

/-- A field of a record. -/
structure Field where
  /-- The name of its member. -/
  name : String
  /-- What it means when the member is missing. -/
  absence : Absence := .forbidden
deriving DecidableEq, Repr

namespace Field

/-- The members of an object, unless the name of one stands for no text. -/
def named? (members : List (Option String × Json)) : Option (List (String × Json)) :=
  members.mapM (fun m => m.1.map (·, m.2))

/-- What the members of an object say of one field: it may come once at most. -/
def pick? (field : Field) (members : List (String × Json)) : Option (Option Json) :=
  match members.filter (·.1 == field.name) with
  | [] => if field.absence = .forbidden then none else some none
  | [m] => some (some m.2)
  | _ => none

/--
What a document says of each field, in the order of declaration. An array has to
be complete up to trailing fields that have defaults.
-/
def readAll (fields : List Field) : Json → Option (List (Option Json))
  | .object members => do
    let members ← named? members
    fields.mapM (·.pick? members)
  | .array items =>
    if items.length ≤ fields.length ∧ (fields.drop items.length).all (·.absence = .default) then
      some (items.map some ++ List.replicate (fields.length - items.length) none)
    else none
  | _ => none

/-- The value of a field that has to be there. -/
def required {α : Type} [Codec α] (v : Option Json) : Option α := v.bind decode

/-- The value of a field that is optional. -/
def optional {α : Type} [Codec α] : Option Json → Option (Option α)
  | none => some none
  | some v => decode v

/-- The value of a field with a default. -/
def defaulted {α : Type} [Codec α] (default : α) : Option Json → Option α
  | none => some default
  | some v => decode v

end Field

/-- A type written as an object with a member for each field. -/
class Record (α : Type) where
  /-- The fields, in the order of declaration. -/
  fields : List Field
  /-- The documents of the fields. -/
  toValues : α → List Json
  /-- The record with these fields. -/
  ofValues : List (Option Json) → Option α

instance {α : Type} [Record α] : Codec α where
  encode a := .ofMembers (((Record.fields α).map Field.name).zip (Record.toValues a))
  decode v := (Field.readAll (Record.fields α) v).bind Record.ofValues

/-! ## Choices -/

namespace Json

/-- The case that a document names, and what it carries. -/
def case? : Json → Option (String × Option Json)
  | .string (some name) => some (name, none)
  | .object [(some name, v)] => some (name, some v)
  | _ => none

/-- The name of a case that carries nothing. -/
def plainCase? (v : Json) : Option String :=
  match v.case? with
  | some (name, none) => some name
  | some (name, some .null) => some name
  | _ => none

end Json

/-- A type whose values are a few names. -/
class Named (α : Type) where
  /-- All its values. -/
  all : List α
  /-- The name of a value in JSON. -/
  name : α → String

instance {α : Type} [Named α] : Codec α where
  encode a := .text (Named.name a)
  decode v := v.plainCase?.bind (fun s => Named.all.find? (fun (a : α) => Named.name a == s))

end CheckpointLedger
