import CheckpointLedger.Json.Value

/-!
# JSON tokens

The lexical half of the grammar: from the characters of a document to its next
token and the characters after it. Every function here takes characters off the
front and says what they were; nothing is skipped but the four blanks.

Where two tokens stand side by side with nothing between them (`01`, `1"a"`) the
lexer finds both; that no document allows this is the business of the grammar,
in which no two values are neighbours.
-/

namespace CheckpointLedger

/-- A lexical unit of a JSON document. -/
inductive Token where
  /-- An opening bracket, which starts an array. -/
  | openArray
  /-- A closing bracket. -/
  | closeArray
  /-- An opening brace, which starts an object. -/
  | openObject
  /-- A closing brace. -/
  | closeObject
  /-- A colon, between a name and its value. -/
  | colon
  /-- A comma, between two items or two members. -/
  | comma
  /-- A string, which is a value or the name of a member. -/
  | string (content : Option String)
  /-- Any other value that is one token: `null`, a truth value or a number. -/
  | atom (value : Json)

/-- One element of a string literal: a character, or a code unit given in hexadecimal. -/
inductive Piece where
  /-- A character written as itself or by a short escape. -/
  | char (c : Char)
  /-- A UTF-16 code unit written as four hexadecimal digits. -/
  | unit (code : Nat)

namespace Piece

/-- The first half of a surrogate pair. -/
def isHigh (code : Nat) : Bool := 0xD800 ≤ code && code < 0xDC00

/-- The second half of a surrogate pair. -/
def isLow (code : Nat) : Bool := 0xDC00 ≤ code && code < 0xE000

/-- The character of a surrogate pair. -/
def ofPair (high low : Nat) : Char :=
  Char.ofNat (0x10000 + (high - 0xD800) * 0x400 + (low - 0xDC00))

/--
The characters that the pieces stand for, after those already `done` (latest
first). A surrogate that is not part of a pair stands for nothing, and then
neither does the whole.
-/
def joinFrom (done : List Char) : List Piece → Option (List Char)
  | [] => some done.reverse
  | char c :: rest => joinFrom (c :: done) rest
  | unit code :: rest =>
    if isHigh code then
      match rest with
      | unit low :: rest =>
        if isLow low then joinFrom (ofPair code low :: done) rest else none
      | _ => none
    else if isLow code then none
    else joinFrom (Char.ofNat code :: done) rest

/-- The text of a string literal. -/
def join (pieces : List Piece) : Option String := (joinFrom [] pieces).map String.ofList

end Piece

namespace Token

/-- The value of a hexadecimal digit, in either case. -/
def hexDigit? (c : Char) : Option Nat :=
  if '0' ≤ c ∧ c ≤ '9' then some (c.toNat - 48)
  else if 'a' ≤ c ∧ c ≤ 'f' then some (c.toNat - 87)
  else if 'A' ≤ c ∧ c ≤ 'F' then some (c.toNat - 55)
  else none

/-- The number that four hexadecimal digits write. -/
def codeUnit? (a b c d : Char) : Option Nat :=
  match hexDigit? a, hexDigit? b, hexDigit? c, hexDigit? d with
  | some a, some b, some c, some d => some (((a * 16 + b) * 16 + c) * 16 + d)
  | _, _, _, _ => none

/-- What a backslash and one character stand for. -/
def shortEscape? : Char → Option Char
  | '"' => some '"'
  | '\\' => some '\\'
  | '/' => some '/'
  | 'b' => some '\x08'
  | 'f' => some '\x0c'
  | 'n' => some '\n'
  | 'r' => some '\r'
  | 't' => some '\t'
  | _ => none

/--
The pieces of a string literal from behind its opening quote, after those
already `done` (latest first), and what follows the closing quote. Control
characters have to be escaped.
-/
def lexString (done : List Piece) : List Char → Option (List Piece × List Char)
  | [] => none
  | '"' :: rest => some (done.reverse, rest)
  | '\\' :: 'u' :: a :: b :: c :: d :: rest =>
    match codeUnit? a b c d with
    | some code => lexString (.unit code :: done) rest
    | none => none
  | '\\' :: c :: rest =>
    match shortEscape? c with
    | some e => lexString (.char e :: done) rest
    | none => none
  | c :: rest => if c < ' ' then none else lexString (.char c :: done) rest

/-- A run of digits, at least one, and what follows it. -/
def lexDigits (cs : List Char) : Option (List Char × List Char) :=
  match cs.takeWhile Char.isDigit with
  | [] => none
  | digits => some (digits, cs.dropWhile Char.isDigit)

/-- The number that a run of decimal digits writes. -/
def natOfDigits (digits : List Char) : Nat := Nat.ofDigitChars 10 digits 0

/-- The digits before the point: a zero alone, or digits that do not start with one. -/
def lexWhole : List Char → Option (Nat × List Char)
  | '0' :: rest => some (0, rest)
  | cs => (lexDigits cs).map (fun d => (natOfDigits d.1, d.2))

/-- The digits after the point, if there is a point. -/
def lexFraction : List Char → Option (List Char × List Char)
  | '.' :: rest => lexDigits rest
  | cs => some ([], cs)

/-- The sign and digits of an exponent, from behind its letter. -/
def lexPower : List Char → Option (Int × List Char)
  | '+' :: rest => (lexDigits rest).map (fun d => ((natOfDigits d.1 : Int), d.2))
  | '-' :: rest => (lexDigits rest).map (fun d => (-(natOfDigits d.1 : Int), d.2))
  | cs => (lexDigits cs).map (fun d => ((natOfDigits d.1 : Int), d.2))

/-- The exponent, if there is one. -/
def lexExponent : List Char → Option (Option Int × List Char)
  | 'e' :: rest => (lexPower rest).map (fun p => (some p.1, p.2))
  | 'E' :: rest => (lexPower rest).map (fun p => (some p.1, p.2))
  | cs => some (none, cs)

/-- A number from behind its sign. -/
def lexUnsigned (negative : Bool) (cs : List Char) : Option (Numeral × List Char) := do
  let (whole, cs) ← lexWhole cs
  let (fraction, cs) ← lexFraction cs
  let (exponent, cs) ← lexExponent cs
  return (⟨negative, whole, fraction, exponent⟩, cs)

/-- A number. -/
def lexNumber : List Char → Option (Numeral × List Char)
  | '-' :: rest => lexUnsigned true rest
  | cs => lexUnsigned false cs

/-- The blanks of JSON: space, tab, line feed and carriage return. -/
def isBlank (c : Char) : Bool := c == ' ' || c == '\t' || c == '\n' || c == '\r'

/-- The token at the front, which is no blank, and what follows it. -/
def lex : List Char → Option (Token × List Char)
  | '[' :: rest => some (openArray, rest)
  | ']' :: rest => some (closeArray, rest)
  | '\x7b' :: rest => some (openObject, rest)
  | '\x7d' :: rest => some (closeObject, rest)
  | ':' :: rest => some (colon, rest)
  | ',' :: rest => some (comma, rest)
  | '"' :: rest => (lexString [] rest).map (fun s => (string (Piece.join s.1), s.2))
  | 'n' :: 'u' :: 'l' :: 'l' :: rest => some (atom .null, rest)
  | 't' :: 'r' :: 'u' :: 'e' :: rest => some (atom (.bool true), rest)
  | 'f' :: 'a' :: 'l' :: 's' :: 'e' :: rest => some (atom (.bool false), rest)
  | cs => (lexNumber cs).map (fun n => (atom (.number n.1), n.2))

/-! ## Every token takes at least one character -/

theorem length_lexString {done : List Piece} {cs : List Char} {r : List Piece × List Char}
    (h : lexString done cs = some r) : r.2.length < cs.length := by
  fun_induction lexString done cs with
  | case1 => simp at h
  | case2 => simp at h; subst h; simp
  | case3 done a b c d rest code hcode ih => have := ih h; simp; omega
  | case4 => simp at h
  | case5 done c rest _ e he ih => have := ih h; simp; omega
  | case6 => simp at h
  | case7 => simp at h
  | case8 done c rest _ _ _ hc ih => have := ih h; simp; omega

theorem length_dropWhile_le (p : Char → Bool) (cs : List Char) :
    (cs.dropWhile p).length ≤ cs.length := by
  induction cs with
  | nil => simp
  | cons c rest ih => rw [List.dropWhile_cons]; split <;> simp; omega

theorem length_lexDigits {cs : List Char} {r : List Char × List Char}
    (h : lexDigits cs = some r) : r.2.length < cs.length := by
  unfold lexDigits at h
  cases cs with
  | nil => simp at h
  | cons c rest =>
    by_cases hc : c.isDigit
    · simp only [List.takeWhile_cons, hc, if_true, List.dropWhile_cons, Option.some.injEq] at h
      subst h
      have := length_dropWhile_le Char.isDigit rest
      simp; omega
    · simp [hc] at h

theorem length_lexWhole {cs : List Char} {r : Nat × List Char}
    (h : lexWhole cs = some r) : r.2.length < cs.length := by
  unfold lexWhole at h
  split at h
  · cases h; simp
  · obtain ⟨d, hd, rfl⟩ := Option.map_eq_some_iff.mp h
    exact length_lexDigits hd

theorem length_lexFraction {cs : List Char} {r : List Char × List Char}
    (h : lexFraction cs = some r) : r.2.length ≤ cs.length := by
  unfold lexFraction at h
  split at h
  · have := length_lexDigits h; simp; omega
  · cases h; simp

theorem length_lexPower {cs : List Char} {r : Int × List Char}
    (h : lexPower cs = some r) : r.2.length < cs.length := by
  unfold lexPower at h
  split at h
  all_goals
    obtain ⟨d, hd, rfl⟩ := Option.map_eq_some_iff.mp h
    have := length_lexDigits hd
    simp; omega

theorem length_lexExponent {cs : List Char} {r : Option Int × List Char}
    (h : lexExponent cs = some r) : r.2.length ≤ cs.length := by
  unfold lexExponent at h
  split at h
  · obtain ⟨p, hp, rfl⟩ := Option.map_eq_some_iff.mp h
    have := length_lexPower hp; simp; omega
  · obtain ⟨p, hp, rfl⟩ := Option.map_eq_some_iff.mp h
    have := length_lexPower hp; simp; omega
  · cases h; simp

theorem length_lexUnsigned {negative : Bool} {cs : List Char} {r : Numeral × List Char}
    (h : lexUnsigned negative cs = some r) : r.2.length < cs.length := by
  simp only [lexUnsigned, Option.bind_eq_bind, Option.bind_eq_some_iff, Option.pure_def,
    Option.some.injEq] at h
  obtain ⟨w, hw, f, hf, e, he, rfl⟩ := h
  have := length_lexWhole hw
  have := length_lexFraction hf
  have := length_lexExponent he
  simp; omega

theorem length_lexNumber {cs : List Char} {r : Numeral × List Char}
    (h : lexNumber cs = some r) : r.2.length < cs.length := by
  unfold lexNumber at h
  split at h
  · have := length_lexUnsigned h; simp; omega
  · exact length_lexUnsigned h

theorem length_lex {cs : List Char} {t : Token} {rest : List Char}
    (h : lex cs = some (t, rest)) : rest.length < cs.length := by
  unfold lex at h
  split at h
  case h_7 =>
    obtain ⟨s, hs, heq⟩ := Option.map_eq_some_iff.mp h
    have := length_lexString hs
    cases heq; simp; omega
  case h_11 =>
    obtain ⟨n, hn, heq⟩ := Option.map_eq_some_iff.mp h
    have := length_lexNumber hn
    cases heq; exact this
  all_goals cases h; simp; try omega

end Token

end CheckpointLedger
