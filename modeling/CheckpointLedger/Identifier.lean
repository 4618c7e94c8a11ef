import CheckpointLedger.Json.Codec

/-!
# Identifiers

Task groups and execution attempts are told apart by 128-bit numbers. Both kinds
are one type with the kind as an index, so a vertex is never taken for an
attempt, and everything said of the text of one holds for the other.

An identifier is **written** as 32 lower-case hexadecimal digits: behind a word
for its kind when shown to people, and in groups of 8, 4, 4, 4 and 12 set off by
hyphens in documents. It is **read** from the digits alone, or from the groups,
also in braces or behind the name of the scheme; the case of a letter is free in
the digits and in the name.
-/

namespace CheckpointLedger

/-- What an identifier identifies. -/
inductive IdentifierKind where
  /-- A task group: all parallel subtasks of one stage of a job. -/
  | vertex
  /-- One execution attempt of one subtask. -/
  | attempt
deriving DecidableEq, Repr

/-- An identifier of the given kind. -/
structure Identifier (kind : IdentifierKind) where
  /-- The 128 bits, as a number. -/
  value : Nat
  /-- There are no more than 128 of them. -/
  value_lt : value < 0x100000000000000000000000000000000
deriving DecidableEq, Repr

/-- Identifies a task group. -/
abbrev VertexId := Identifier .vertex

/-- Identifies an execution attempt. -/
abbrev AttemptId := Identifier .attempt

namespace Identifier

variable {kind : IdentifierKind}

instance : Ord (Identifier kind) where
  compare a b := compare a.value b.value

theorem compare_def (a b : Identifier kind) : compare a b = compare a.value b.value := rfl

instance : Std.TransOrd (Identifier kind) where
  eq_swap {a b} := by rw [compare_def, compare_def]; exact Std.OrientedCmp.eq_swap
  isLE_trans {a b c} hab hbc := by
    rw [compare_def] at *; exact Std.TransCmp.isLE_trans hab hbc

instance : Std.LawfulEqOrd (Identifier kind) where
  compare_self {a} := by rw [compare_def]; exact Std.ReflCmp.compare_self
  eq_of_compare {a b} h := by
    have : a.value = b.value := Nat.compare_eq_eq.mp h
    cases a; cases b; cases this; rfl

/-! ## Writing -/

/-- The last `count` hexadecimal digits of a number. -/
def hexDigits : Nat → Nat → List Char
  | 0, _ => []
  | count + 1, n => hexDigits count (n / 16) ++ [Nat.digitChar (n % 16)]

/-- The 32 hexadecimal digits of an identifier. -/
def digits (id : Identifier kind) : List Char := hexDigits 32 id.value

/-- The sizes of the groups between hyphens. -/
def groupSizes : List Nat := [8, 4, 4, 4, 12]

/-- Sets groups of the given sizes off by hyphens; what is left over joins the last group. -/
def hyphenate : List Nat → List Char → List Char
  | size :: next :: sizes, cs => cs.take size ++ '-' :: hyphenate (next :: sizes) (cs.drop size)
  | _, cs => cs

/-- The form used in documents. -/
def text (id : Identifier kind) : String := String.ofList (hyphenate groupSizes id.digits)

/-- The word that stands before an identifier of a kind. -/
def label : IdentifierKind → String
  | .vertex => "vertex-"
  | .attempt => "attempt-"

/-- The form shown to people. -/
def display (id : Identifier kind) : String := label kind ++ String.ofList id.digits

/-! ## Reading -/

/-- The number that hexadecimal digits write, unless one of them is none. -/
def ofHexDigits (cs : List Char) : Option Nat :=
  cs.foldlM (fun n c => (Token.hexDigit? c).map (16 * n + ·)) 0

/-- Takes the hyphens out again, if the groups have the given sizes. -/
def unhyphenate : List Nat → List Char → Option (List Char)
  | [], cs => if cs.isEmpty then some [] else none
  | [size], cs => if cs.length = size then some cs else none
  | size :: next :: sizes, cs =>
    match cs.drop size with
    | '-' :: rest => (unhyphenate (next :: sizes) rest).map (cs.take size ++ ·)
    | _ => none

/-- The name of the scheme, with the colons that set it off. -/
def schemeName : List Char := ['u', 'r', 'n', ':', 'u', 'u', 'i', 'd', ':']

/-- Whether a text starts with the name of the scheme, in letters of any case. -/
def namesScheme (cs : List Char) : Bool :=
  (cs.take schemeName.length).map Char.toLower = schemeName

/-- What is left when the braces around a text, or the name of the scheme before it, are gone. -/
def unwrap : List Char → List Char
  | '\x7b' :: rest => if rest.getLast? = some '\x7d' then rest.dropLast else '\x7b' :: rest
  | cs => if namesScheme cs then cs.drop schemeName.length else cs

/-- The digits of an identifier, taken out of any of its written forms. -/
def digitsOf? (cs : List Char) : Option (List Char) :=
  if cs.length = 32 then some cs else unhyphenate groupSizes (unwrap cs)

/-- The identifier that a text writes. -/
def ofText? (s : String) : Option (Identifier kind) :=
  ((digitsOf? s.toList).bind ofHexDigits).bind fun n =>
    if h : n < 0x100000000000000000000000000000000 then some ⟨n, h⟩ else none

instance : Codec (Identifier kind) where
  encode id := .text id.text
  decode
    | .string (some s) => ofText? s
    | _ => none

end Identifier

end CheckpointLedger
