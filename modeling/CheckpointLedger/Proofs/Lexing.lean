import CheckpointLedger.Json.Printer
import CheckpointLedger.Json.Reader
import Mathlib.Data.List.Basic

/-!
# Tokens that were written

The printer writes a number or a string as characters, and the lexer takes them off the
front of a text again. It takes all of them and no more, whatever stands behind: a string
ends at its closing quote, and a number ends where what follows **cannot go on with it**,
which is so at the end of a document and before a comma or a closing bracket or brace
(`Stops`).

A string is written character by character, and each that has to be escaped in a way of
its own. On the way back it is one piece, a character or a code unit, and stands for this
very character (`pieceOf`).
-/

namespace CheckpointLedger

/-! ## Digits -/

namespace Token

theorem hexDigit?_digitChar {n : Nat} (h : n < 16) : hexDigit? (Nat.digitChar n) = some n := by
  have hall : ∀ k : Fin 16, hexDigit? (Nat.digitChar k.val) = some k.val := by decide
  exact hall ⟨n, h⟩

/-- Digits are taken up to what is none. -/
theorem lexDigits_append {digits rest : List Char} (hne : digits ≠ [])
    (hdigits : ∀ c ∈ digits, c.isDigit = true) (hrest : ∀ c ∈ rest.head?, c.isDigit = false) :
    lexDigits (digits ++ rest) = some (digits, rest) := by
  have hstop : rest.takeWhile Char.isDigit = [] ∧ rest.dropWhile Char.isDigit = rest := by
    cases rest with
    | nil => exact ⟨rfl, rfl⟩
    | cons c tail =>
      have hc : c.isDigit = false := hrest c rfl
      exact ⟨List.takeWhile_cons_of_neg (by simp [hc]), List.dropWhile_cons_of_neg (by simp [hc])⟩
  unfold lexDigits
  rw [List.takeWhile_append_of_pos hdigits, List.dropWhile_append_of_pos hdigits, hstop.1,
    hstop.2, List.append_nil]
  cases digits with
  | nil => exact absurd rfl hne
  | cons c tail => rfl

end Token

namespace Numeral

theorem isDigit_of_mem_digits {n : Nat} {c : Char} (h : c ∈ digits n) : c.isDigit = true :=
  Nat.isDigit_of_mem_toDigits (by decide) (by decide) h

theorem natOfDigits_digits (n : Nat) : Token.natOfDigits (digits n) = n :=
  Nat.ofDigitChars_ten_toDigits

theorem digits_ne_nil (n : Nat) : digits n ≠ [] := Nat.toDigits_ne_nil

/-- A number that is not zero is not written with a zero in front. -/
theorem head?_digits {n : Nat} (h : n ≠ 0) : (digits n).head? ≠ some '0' := by
  induction n using Nat.strongRecOn with
  | ind n ih =>
    rw [digits, Nat.toDigits_eq_if (by decide)]
    by_cases hn : n < 10
    · rw [if_pos hn, List.head?_cons, Ne, Option.some_inj, Nat.digitChar_eq_zero]
      exact h
    · rw [if_neg hn, List.head?_append_of_ne_nil _ Nat.toDigits_ne_nil]
      exact ih (n / 10) (by omega) (by omega)

end Numeral

namespace Token

open Numeral (digits)

theorem lexDigits_digits (n : Nat) {rest : List Char}
    (hrest : ∀ c ∈ rest.head?, c.isDigit = false) :
    lexDigits (digits n ++ rest) = some (digits n, rest) :=
  lexDigits_append (Numeral.digits_ne_nil n) (fun _ hc => Numeral.isDigit_of_mem_digits hc) hrest

theorem head?_append_digits {n : Nat} {c : Char} {rest tail : List Char}
    (h : digits n ++ rest = c :: tail) : (digits n).head? = some c := by
  rw [← List.head?_append_of_ne_nil _ (Numeral.digits_ne_nil n), h]
  rfl

theorem isDigit_of_append_digits {n : Nat} {c : Char} {rest tail : List Char}
    (h : digits n ++ rest = c :: tail) : c.isDigit = true :=
  Numeral.isDigit_of_mem_digits (List.mem_of_head? (head?_append_digits h))

theorem lexWhole_digits (n : Nat) {rest : List Char}
    (hrest : ∀ c ∈ rest.head?, c.isDigit = false) :
    lexWhole (digits n ++ rest) = some (n, rest) := by
  -- a zero in front is taken by itself, so no other number may start with one
  by_cases hn : n = 0
  · subst hn
    rfl
  · unfold lexWhole
    split
    · rename_i tail heq
      exact absurd (head?_append_digits heq) (Numeral.head?_digits hn)
    · rw [lexDigits_digits n hrest, Option.map_some, Numeral.natOfDigits_digits]

/-! ## Numbers -/

/-- Whether this is the end of a text, or starts with what may stand behind a value. -/
def Stops (rest : List Char) : Prop := ∀ c ∈ rest.head?, c = ',' ∨ c = ']' ∨ c = '\x7d'

theorem stops_nil : Stops [] := by
  intro c hc
  cases hc

theorem stops_cons {c : Char} {tail : List Char} (h : c = ',' ∨ c = ']' ∨ c = '\x7d') :
    Stops (c :: tail) := by
  intro d hd
  rw [← Option.some.inj hd]
  exact h

theorem Stops.head {rest : List Char} (h : Stops rest) {c : Char} {tail : List Char}
    (heq : rest = c :: tail) : c = ',' ∨ c = ']' ∨ c = '\x7d' :=
  h c (by rw [heq]; rfl)

end Token

namespace Numeral

/-- Whether the fraction consists of digits. -/
def WellFormed (n : Numeral) : Prop := ∀ c ∈ n.fraction, c.isDigit = true

/-- The characters of an exponent, if there is one. -/
def exponentChars : Option Int → List Char
  | none => []
  | some e => 'e' :: intChars e

/-- The characters of a fraction, if there is one. -/
def fractionChars (fraction : List Char) : List Char :=
  if fraction.isEmpty then [] else '.' :: fraction

theorem print_eq (n : Numeral) :
    n.print = (if n.negative then ['-'] else []) ++
      (digits n.whole ++ (fractionChars n.fraction ++ exponentChars n.exponent)) := by
  unfold print
  rw [List.append_assoc, List.append_assoc]
  rfl

end Numeral

namespace Token

open Numeral (digits fractionChars exponentChars)

theorem lexPower_intChars (e : Int) {rest : List Char} (hrest : Stops rest) :
    lexPower (Numeral.intChars e ++ rest) = some (e, rest) := by
  have hdigit : ∀ c ∈ rest.head?, c.isDigit = false := by
    intro c hc
    rcases hrest c hc with rfl | rfl | rfl <;> rfl
  have hlex := lexDigits_digits e.natAbs hdigit
  unfold Numeral.intChars
  by_cases he : e < 0
  · rw [if_pos he]
    show (lexDigits (digits e.natAbs ++ rest)).map _ = _
    rw [hlex, Option.map_some, Numeral.natOfDigits_digits]
    congr 2
    omega
  · -- without a sign the first digit is not to be taken for one
    rw [if_neg he]
    unfold lexPower
    split
    · rename_i heq
      exact absurd (isDigit_of_append_digits heq) (by decide)
    · rename_i heq
      exact absurd (isDigit_of_append_digits heq) (by decide)
    · rw [hlex, Option.map_some, Numeral.natOfDigits_digits]
      congr 2
      omega

theorem lexExponent_exponentChars (e : Option Int) {rest : List Char} (hrest : Stops rest) :
    lexExponent (exponentChars e ++ rest) = some (e, rest) := by
  cases e with
  | none =>
    show lexExponent rest = some (none, rest)
    unfold lexExponent
    split
    · exact absurd (hrest.head rfl) (by decide)
    · exact absurd (hrest.head rfl) (by decide)
    · rfl
  | some e =>
    show (lexPower (Numeral.intChars e ++ rest)).map _ = _
    rw [lexPower_intChars e hrest]
    rfl

/-- An exponent, or what stops a number, does not start with a digit or a point. -/
theorem head?_exponentChars (e : Option Int) {rest : List Char} (hrest : Stops rest) :
    ∀ c ∈ (exponentChars e ++ rest).head?, c.isDigit = false ∧ c ≠ '.' := by
  intro c hc
  cases e with
  | none => rcases hrest c hc with rfl | rfl | rfl <;> exact ⟨rfl, by decide⟩
  | some e =>
    obtain rfl : 'e' = c := Option.some.inj hc
    exact ⟨rfl, by decide⟩

theorem lexFraction_fractionChars {fraction : List Char}
    (hdigits : ∀ c ∈ fraction, c.isDigit = true) {rest : List Char}
    (hrest : ∀ c ∈ rest.head?, c.isDigit = false ∧ c ≠ '.') :
    lexFraction (fractionChars fraction ++ rest) = some (fraction, rest) := by
  cases fraction with
  | nil =>
    show lexFraction rest = some ([], rest)
    unfold lexFraction
    split
    · exact absurd rfl (hrest '.' rfl).2
    · rfl
  | cons d tail =>
    exact lexDigits_append (List.cons_ne_nil d tail) hdigits (fun c hc => (hrest c hc).1)

/-- A fraction, or what comes then, does not start with a digit. -/
theorem head?_fractionChars (fraction : List Char) {rest : List Char}
    (hrest : ∀ c ∈ rest.head?, c.isDigit = false ∧ c ≠ '.') :
    ∀ c ∈ (fractionChars fraction ++ rest).head?, c.isDigit = false := by
  intro c hc
  cases fraction with
  | nil => exact (hrest c hc).1
  | cons d tail =>
    obtain rfl : '.' = c := Option.some.inj hc
    rfl

theorem lexUnsigned_print (negative : Bool) {n : Numeral} (hn : n.WellFormed)
    (hsign : n.negative = negative) {rest : List Char} (hrest : Stops rest) :
    lexUnsigned negative
        (digits n.whole ++ (fractionChars n.fraction ++ (exponentChars n.exponent ++ rest))) =
      some (n, rest) := by
  have hexponent := head?_exponentChars n.exponent hrest
  unfold lexUnsigned
  rw [lexWhole_digits n.whole (head?_fractionChars n.fraction hexponent)]
  show (lexFraction _ >>= _) = _
  rw [lexFraction_fractionChars hn hexponent]
  show (lexExponent _ >>= _) = _
  rw [lexExponent_exponentChars n.exponent hrest, ← hsign]
  rfl

/-- **A number that was written is taken off the front of a text.** -/
theorem lexNumber_print {n : Numeral} (hn : n.WellFormed) {rest : List Char}
    (hrest : Stops rest) : lexNumber (n.print ++ rest) = some (n, rest) := by
  rw [Numeral.print_eq, List.append_assoc, List.append_assoc, List.append_assoc]
  cases hsign : n.negative with
  | true => exact lexUnsigned_print true hn hsign hrest
  | false =>
    show lexNumber (digits n.whole ++ _) = _
    unfold lexNumber
    split
    · rename_i heq
      exact absurd (isDigit_of_append_digits heq) (by decide)
    · exact lexUnsigned_print false hn hsign hrest

/-! ## Strings -/

/-- Whether a character is written with its code. -/
def isCoded (c : Char) : Bool :=
  c < ' ' && !(c = '\x08' || c = '\t' || c = '\n' || c = '\x0c' || c = '\r')

/-- What a character is read back as. -/
def pieceOf (c : Char) : Piece := if isCoded c then .unit c.toNat else .char c

theorem codeUnit?_code {n : Nat} (h : n < 32) :
    codeUnit? '0' '0' (Nat.digitChar (n / 16)) (Nat.digitChar (n % 16)) = some n := by
  unfold codeUnit?
  rw [hexDigit?_digitChar (show n / 16 < 16 by omega),
    hexDigit?_digitChar (show n % 16 < 16 by omega), show hexDigit? '0' = some 0 from rfl]
  show some (((0 * 16 + 0) * 16 + n / 16) * 16 + n % 16) = some n
  congr 1
  omega

/-- The short escapes. -/
theorem lexString_short {c e : Char} (h : shortEscape? c = some e) (hc : c ≠ 'u')
    (done : List Piece) (tail : List Char) :
    lexString done ('\\' :: c :: tail) = lexString (.char e :: done) tail := by
  rw [lexString, h]
  exact fun _ _ _ _ _ he _ => hc he

/-- Whatever a character is written as, it is one piece. -/
theorem lexString_escape (done : List Piece) (c : Char) (tail : List Char) :
    lexString done (Json.escape c ++ tail) = lexString (pieceOf c :: done) tail := by
  unfold Json.escape
  -- seven short escapes, then those with a code, then what is written as it is
  split_ifs with h1 h2 h3 h4 h5 h6 h7 hcontrol
  · subst h1
    exact lexString_short rfl (by decide) done tail
  · subst h2
    exact lexString_short rfl (by decide) done tail
  · subst h3
    exact lexString_short rfl (by decide) done tail
  · subst h4
    exact lexString_short rfl (by decide) done tail
  · subst h5
    exact lexString_short rfl (by decide) done tail
  · subst h6
    exact lexString_short rfl (by decide) done tail
  · subst h7
    exact lexString_short rfl (by decide) done tail
  · have hcode : c.toNat < 32 := hcontrol
    have hcoded : pieceOf c = .unit c.toNat := by
      simp [pieceOf, isCoded, h3, h4, h5, h6, h7, hcontrol]
    rw [hcoded]
    show lexString done ('\\' :: 'u' :: '0' :: '0' :: _ :: _ :: tail) = _
    rw [lexString, codeUnit?_code hcode]
  · have hraw : pieceOf c = .char c := by simp [pieceOf, isCoded, hcontrol]
    rw [hraw]
    show lexString done (c :: tail) = _
    rw [lexString, if_neg hcontrol]
    · exact h1
    · exact fun _ _ _ _ _ he _ => h2 he
    · exact fun _ _ he _ => h2 he

theorem lexString_escapes (done : List Piece) (cs tail : List Char) :
    lexString done (cs.flatMap Json.escape ++ tail) =
      lexString ((cs.map pieceOf).reverse ++ done) tail := by
  induction cs generalizing done with
  | nil => rfl
  | cons c rest ih =>
    rw [List.flatMap_cons, List.append_assoc, lexString_escape, ih, List.map_cons,
      List.reverse_cons, List.append_assoc]
    rfl

/-- The piece stands for the character. -/
theorem joinFrom_pieceOf (done : List Char) (c : Char) (rest : List Piece) :
    Piece.joinFrom done (pieceOf c :: rest) = Piece.joinFrom (c :: done) rest := by
  unfold pieceOf
  split
  · rename_i hcoded
    have hcode : c.toNat < 32 := by
      have hcontrol : c < ' ' := by
        unfold isCoded at hcoded
        exact of_decide_eq_true (Bool.and_eq_true_iff.mp hcoded).1
      exact hcontrol
    -- a code this small is no half of a surrogate pair
    have hhigh : Piece.isHigh c.toNat = false := by
      unfold Piece.isHigh
      rw [decide_eq_false (by omega)]
      rfl
    have hlow : Piece.isLow c.toNat = false := by
      unfold Piece.isLow
      rw [decide_eq_false (by omega)]
      rfl
    rw [Piece.joinFrom.eq_def]
    dsimp only
    rw [hhigh, if_neg Bool.false_ne_true, hlow, if_neg Bool.false_ne_true, Char.ofNat_toNat]
  · rfl

theorem joinFrom_pieces (done cs : List Char) :
    Piece.joinFrom done (cs.map pieceOf) = some (done.reverse ++ cs) := by
  induction cs generalizing done with
  | nil => exact congrArg some (List.append_nil _).symm
  | cons c rest ih =>
    rw [List.map_cons, joinFrom_pieceOf, ih, List.reverse_cons, List.append_assoc]
    rfl

/-- The pieces of a text that was written stand for the text. -/
theorem join_pieces (s : String) : Piece.join (s.toList.map pieceOf) = some s := by
  rw [Piece.join, joinFrom_pieces, List.reverse_nil, List.nil_append, Option.map_some,
    String.ofList_toList]

/-- **A string that was written is taken off the front of a text.** -/
theorem lex_printString (content : Option String) (rest : List Char) :
    lex (Json.printString content ++ rest) = some (string content, rest) := by
  cases content with
  | none => rfl
  | some s =>
    show (lexString [] ((s.toList.flatMap Json.escape ++ ['"']) ++ rest)).map _ = _
    rw [List.append_assoc, lexString_escapes]
    show (lexString _ ('"' :: rest)).map _ = _
    rw [lexString, List.append_nil, List.reverse_reverse, Option.map_some, join_pieces]

/-! ## Which token it is -/

/-- What starts with a sign or a digit is a number. -/
theorem lex_of_number {c : Char} (h : c = '-' ∨ c.isDigit = true) (tail : List Char) :
    lex (c :: tail) = (lexNumber (c :: tail)).map (fun n => (atom (.number n.1), n.2)) := by
  have hne (d : Char) (hd : d ≠ '-' ∧ d.isDigit = false) : c ≠ d := by
    rintro rfl
    rcases h with rfl | hdigit
    · exact hd.1 rfl
    · exact Bool.false_ne_true (hd.2.symm.trans hdigit)
  have hcons {d : Char} {rest : List Char} (hd : d ≠ '-' ∧ d.isDigit = false)
      (heq : c :: tail = d :: rest) : False := hne d hd (List.cons.inj heq).1
  rw [lex]
  -- that it is no other token
  all_goals exact fun _ => hcons (by decide)

/-- A number is written with a sign or a digit in front. -/
theorem exists_print_eq (n : Numeral) :
    ∃ c tail, n.print = c :: tail ∧ (c = '-' ∨ c.isDigit = true) := by
  rw [Numeral.print_eq]
  cases n.negative with
  | true => exact ⟨'-', _, rfl, .inl rfl⟩
  | false =>
    show ∃ c tail, digits n.whole ++ _ = c :: tail ∧ _
    cases hdigits : digits n.whole with
    | nil => exact absurd hdigits (Numeral.digits_ne_nil n.whole)
    | cons c tail =>
      refine ⟨c, _, rfl, .inr (Numeral.isDigit_of_mem_digits (n := n.whole) ?_)⟩
      rw [hdigits]
      exact List.mem_cons_self

theorem lex_numeral {n : Numeral} (hn : n.WellFormed) {rest : List Char} (hrest : Stops rest) :
    lex (n.print ++ rest) = some (atom (.number n), rest) := by
  obtain ⟨c, tail, hprint, hc⟩ := exists_print_eq n
  have hlex := lexNumber_print hn hrest
  rw [hprint] at hlex ⊢
  rw [List.cons_append, lex_of_number hc, ← List.cons_append, hlex]
  rfl

end Token

end CheckpointLedger
