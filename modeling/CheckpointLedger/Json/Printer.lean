import CheckpointLedger.Json.Value

/-!
# Writing JSON

The shortest way to write a document: no blanks, every number by its parts, and
in strings only what has to be escaped, namely the quote, the backslash and the
control characters.
-/

namespace CheckpointLedger

namespace Numeral

/-- The digits of a natural number. -/
def digits (n : Nat) : List Char := Nat.toDigits 10 n

/-- The characters of an integer. -/
def intChars (n : Int) : List Char :=
  if n < 0 then '-' :: digits n.natAbs else digits n.natAbs

/-- The characters of a numeral. -/
def print (n : Numeral) : List Char :=
  (if n.negative then ['-'] else []) ++ digits n.whole
    ++ (if n.fraction.isEmpty then [] else '.' :: n.fraction)
    ++ (match n.exponent with
        | none => []
        | some e => 'e' :: intChars e)

end Numeral

namespace Json

/-- A character inside a string literal. -/
def escape (c : Char) : List Char :=
  if c = '"' then ['\\', '"']
  else if c = '\\' then ['\\', '\\']
  else if c = '\x08' then ['\\', 'b']
  else if c = '\t' then ['\\', 't']
  else if c = '\n' then ['\\', 'n']
  else if c = '\x0c' then ['\\', 'f']
  else if c = '\r' then ['\\', 'r']
  else if c < ' ' then
    ['\\', 'u', '0', '0', Nat.digitChar (c.toNat / 16), Nat.digitChar (c.toNat % 16)]
  else [c]

/-- A string literal. -/
def quote (s : String) : List Char := '"' :: s.toList.flatMap escape ++ ['"']

/-- A string literal; half a surrogate pair where the literal stands for no text. -/
def printString : Option String → List Char
  | some s => quote s
  | none => ['"', '\\', 'u', 'd', '8', '0', '0', '"']

mutual

/-- The characters of a document. -/
def print : Json → List Char
  | .null => ['n', 'u', 'l', 'l']
  | .bool true => ['t', 'r', 'u', 'e']
  | .bool false => ['f', 'a', 'l', 's', 'e']
  | .number n => n.print
  | .string s => printString s
  | .array [] => ['[', ']']
  | .array (item :: rest) => '[' :: print item ++ printItems rest
  | .object [] => ['\x7b', '\x7d']
  | .object ((name, value) :: rest) =>
    '\x7b' :: printString name ++ ':' :: print value ++ printMembers rest

/-- The characters of the items that follow another item, and the closing bracket. -/
def printItems : List Json → List Char
  | [] => [']']
  | item :: rest => ',' :: print item ++ printItems rest

/-- The characters of the members that follow another member, and the closing brace. -/
def printMembers : List (Option String × Json) → List Char
  | [] => ['\x7d']
  | (name, value) :: rest =>
    ',' :: printString name ++ ':' :: print value ++ printMembers rest

end

/-- The text of a document. -/
def render (v : Json) : String := String.ofList v.print

end Json

end CheckpointLedger
