import CheckpointLedger.Json.Token

/-!
# Reading JSON

The grammatical half of the reader: a machine that takes the tokens of a document
one by one. What it has built so far and what may come next are one value, the
`Reader`; the arrays and objects that are still open lie on a stack inside it,
so a document may nest as deeply as it likes.

A document is accepted when its last token completes exactly one value.
-/

namespace CheckpointLedger

/-- An array or object that is still open, around the value being read. -/
inductive Enclosing where
  /-- An array and its items so far, latest first. -/
  | array (items : List Json)
  /-- An object, its members so far, latest first, and the name whose value is being read. -/
  | object (members : List (Option String × Json)) (name : Option String)

/-- How far the reading of a document has come: what may follow, and what is open around it. -/
inductive Reader where
  /-- A value has to follow. -/
  | value (outer : List Enclosing)
  /-- An array was just opened: an item or the closing bracket follows. -/
  | arrayStart (outer : List Enclosing)
  /-- An array has items, latest first: a comma or the closing bracket follows. -/
  | arrayRest (items : List Json) (outer : List Enclosing)
  /-- An object was just opened: a name or the closing brace follows. -/
  | objectStart (outer : List Enclosing)
  /-- A comma was read in an object: a name follows. -/
  | name (members : List (Option String × Json)) (outer : List Enclosing)
  /-- A name was read: a colon follows. -/
  | colon (members : List (Option String × Json)) (name : Option String)
      (outer : List Enclosing)
  /-- An object has members, latest first: a comma or the closing brace follows. -/
  | objectRest (members : List (Option String × Json)) (outer : List Enclosing)
  /-- The document is complete: only blanks may follow. -/
  | done (document : Json)

namespace Reader

/-- Where the reader stands once a value is complete. -/
def complete (v : Json) : List Enclosing → Reader
  | [] => done v
  | .array items :: outer => arrayRest (v :: items) outer
  | .object members s :: outer => objectRest ((s, v) :: members) outer

/-- The start of a value. -/
def startValue (outer : List Enclosing) : Token → Option Reader
  | .atom v => some (complete v outer)
  | .string s => some (complete (.string s) outer)
  | .openArray => some (arrayStart outer)
  | .openObject => some (objectStart outer)
  | _ => none

/-- Takes one token, unless the grammar does not allow it here. -/
def step : Reader → Token → Option Reader
  | value outer, t => startValue outer t
  | arrayStart outer, .closeArray => some (complete (.array []) outer)
  | arrayStart outer, t => startValue (.array [] :: outer) t
  | arrayRest items outer, .comma => some (value (.array items :: outer))
  | arrayRest items outer, .closeArray => some (complete (.array items.reverse) outer)
  | objectStart outer, .closeObject => some (complete (.object []) outer)
  | objectStart outer, .string s => some (colon [] s outer)
  | name members outer, .string s => some (colon members s outer)
  | colon members s outer, .colon => some (value (.object members s :: outer))
  | objectRest members outer, .comma => some (name members outer)
  | objectRest members outer, .closeObject => some (complete (.object members.reverse) outer)
  | _, _ => none

/-- The document, if it is complete. -/
def result? : Reader → Option Json
  | done v => some v
  | _ => none

/-- Reads the rest of a document. -/
def run (reader : Reader) (cs : List Char) : Option Json :=
  match cs with
  | [] => reader.result?
  | c :: rest =>
    if Token.isBlank c then run reader rest
    else
      match _h : Token.lex (c :: rest) with
      | none => none
      | some (t, after) =>
        match reader.step t with
        | none => none
        | some reader => run reader after
termination_by cs.length
decreasing_by
  · simp
  · exact Token.length_lex ‹_›

end Reader

/-- The document that a text writes. -/
def Json.parse (s : String) : Option Json := (Reader.value []).run s.toList

end CheckpointLedger
