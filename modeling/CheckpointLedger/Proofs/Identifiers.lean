import CheckpointLedger.Identifier
import CheckpointLedger.Proofs.Codecs
import Mathlib.Algebra.Ring.Nat
import Mathlib.Data.List.Induction

/-!
# Identifiers that are read

An identifier is written as 32 digits in groups, and read from this and from other texts. It is
known exactly **from which** (`Spells`): they have the digits of the identifier, in any case of the
letters, either alone or in groups set off by hyphens, and the groups stand by themselves, in
braces, or behind the name of the scheme.

Reading takes a text apart from the outside to the inside, and each step is turned around by itself.
Hyphens can be taken out exactly where they would be put (`unhyphenate_eq_some_iff`), and digits
are read as the one number of which they are the digits (`ofHexDigits_eq_some_iff`). What remains is
that no form is taken for another: the digits alone are 32 characters and every other form has
more, and groups start with a digit, so neither with a brace nor with the name of the scheme.
-/

namespace CheckpointLedger

namespace Token

theorem toLower_of_not_ascii {c : Char} (h : 128 ≤ c.toNat) : c.toLower = c := by
  refine dif_neg (fun hrange => ?_)
  have : c.toNat ≤ 90 := hrange.2
  omega

theorem hexDigit?_of_not_ascii {c : Char} (h : 128 ≤ c.toNat) : hexDigit? c = none := by
  have hbelow : ∀ d : Char, d.toNat < 128 → ¬ c ≤ d := by
    intro d hd hle
    have : c.toNat ≤ d.toNat := hle
    omega
  unfold hexDigit?
  rw [if_neg (fun hc => hbelow _ (by decide) hc.2), if_neg (fun hc => hbelow _ (by decide) hc.2),
    if_neg (fun hc => hbelow _ (by decide) hc.2)]

/-- A character is read as a digit if it is the one that is written, in either case. -/
theorem hexDigit?_eq_some_iff {c : Char} {k : Nat} :
    hexDigit? c = some k ↔ k < 16 ∧ c.toLower = Nat.digitChar k := by
  by_cases hascii : c.toNat < 128
  case pos =>
    have hall : ∀ n : Fin 128, hexDigit? (Char.ofNat n).toLower = hexDigit? (Char.ofNat n) ∧
        ∀ k ∈ hexDigit? (Char.ofNat n), k < 16 ∧ (Char.ofNat n).toLower = Nat.digitChar k := by
      decide
    have hc := hall ⟨c.toNat, hascii⟩
    rw [Char.ofNat_toNat] at hc
    refine ⟨hc.2 k, fun ⟨hk, hlower⟩ => ?_⟩
    rw [← hc.1, hlower, hexDigit?_digitChar hk]
  case neg =>
    rw [hexDigit?_of_not_ascii (Nat.not_lt.mp hascii), toLower_of_not_ascii (Nat.not_lt.mp hascii)]
    have hdigit : ∀ k : Fin 16, (Nat.digitChar k).toNat < 128 := by decide
    refine ⟨nofun, fun ⟨hk, hc⟩ => absurd (hdigit ⟨k, hk⟩) ?_⟩
    exact hc ▸ hascii

end Token

namespace Identifier

/-! ## Digits -/

theorem length_hexDigits (count n : Nat) : (hexDigits count n).length = count := by
  induction count generalizing n with
  | zero => rfl
  | succ count ih => rw [hexDigits, List.length_append, ih, List.length_singleton]

theorem digitChar_of_mem_hexDigits {count n : Nat} {c : Char} (h : c ∈ hexDigits count n) :
    ∃ k < 16, c = Nat.digitChar k := by
  induction count generalizing n with
  | zero => cases h
  | succ count ih =>
    rw [hexDigits, List.mem_append, List.mem_singleton] at h
    rcases h with h | rfl
    · exact ih h
    · exact ⟨n % 16, Nat.mod_lt _ (by decide), rfl⟩

theorem ofHexDigits_concat (cs : List Char) (c : Char) :
    ofHexDigits (cs ++ [c]) =
      (ofHexDigits cs).bind (fun n => (Token.hexDigit? c).map (16 * n + ·)) := by
  unfold ofHexDigits
  rw [List.foldlM_append]
  refine congrArg (Option.bind _) (funext fun n => ?_)
  rw [List.foldlM_cons]
  cases Token.hexDigit? c <;> rfl

/-- **Digits are read as the number of which they are the digits**, in any case of the letters. -/
theorem ofHexDigits_eq_some_iff {cs : List Char} {n : Nat} :
    ofHexDigits cs = some n ↔
      n < 16 ^ cs.length ∧ cs.map Char.toLower = hexDigits cs.length n := by
  induction cs using List.reverseRecOn generalizing n with
  | nil => simp [ofHexDigits, hexDigits, eq_comm]
  | append_singleton cs c ih =>
    rw [ofHexDigits_concat, List.length_append, List.length_singleton, hexDigits, List.map_append,
      Nat.pow_succ]
    constructor
    · intro h
      obtain ⟨m, hm, hlast⟩ := Option.bind_eq_some_iff.mp h
      obtain ⟨k, hk, rfl⟩ := Option.map_eq_some_iff.mp hlast
      obtain ⟨hlt, hlower⟩ := ih.mp hm
      obtain ⟨hk, hc⟩ := Token.hexDigit?_eq_some_iff.mp hk
      rw [show (16 * m + k) / 16 = m by omega, show (16 * m + k) % 16 = k by omega, hlower,
        List.map_singleton, hc]
      exact ⟨by omega, rfl⟩
    · rintro ⟨hlt, hlower⟩
      obtain ⟨hinit, hlast⟩ := List.append_inj' hlower rfl
      refine Option.bind_eq_some_iff.mpr ⟨n / 16, ih.mpr ⟨by omega, hinit⟩, ?_⟩
      refine Option.map_eq_some_iff.mpr ⟨n % 16, Token.hexDigit?_eq_some_iff.mpr ?_, by omega⟩
      exact ⟨Nat.mod_lt _ (by decide), (List.cons.inj hlast).1⟩

/-! ## Groups -/

theorem length_hyphenate {sizes : List Nat} {cs : List Char} (h : cs.length = sizes.sum) :
    (hyphenate sizes cs).length = cs.length + (sizes.length - 1) := by
  fun_induction hyphenate sizes cs with
  | case1 size next sizes cs ih =>
    rw [List.sum_cons] at h
    rw [List.length_append, List.length_cons, ih (by rw [List.length_drop]; omega),
      List.length_take, List.length_drop]
    simp only [List.length_cons]
    omega
  | case2 sizes cs hfew =>
    match sizes, hfew with
    | [], _ => rfl
    | [size], _ => rfl
    | size :: next :: sizes, hfew => exact absurd rfl (hfew size next sizes)

/-- **Hyphens are taken out exactly where they would be put.** -/
theorem unhyphenate_eq_some_iff {sizes : List Nat} {cs ds : List Char} :
    unhyphenate sizes cs = some ds ↔ ds.length = sizes.sum ∧ cs = hyphenate sizes ds := by
  induction sizes generalizing cs ds with
  | nil =>
    show (if cs.isEmpty then some [] else none) = some ds ↔ ds.length = 0 ∧ cs = ds
    rw [List.length_eq_zero_iff, Option.ite_none_right_eq_some, List.isEmpty_iff,
      Option.some.injEq]
    exact ⟨fun ⟨hcs, hds⟩ => ⟨hds.symm, hcs.trans hds⟩, fun ⟨hds, hcs⟩ => ⟨hcs.trans hds, hds.symm⟩⟩
  | cons size sizes ih =>
    cases sizes with
    | nil =>
      show (if cs.length = size then some cs else none) = some ds ↔ ds.length = size ∧ cs = ds
      rw [Option.ite_none_right_eq_some, Option.some.injEq]
      exact and_congr_left (fun he => by rw [he])
    | cons next sizes =>
      rw [unhyphenate, hyphenate, List.sum_cons]
      constructor
      · intro h
        split at h
        case h_2 => cases h
        case h_1 rest hrest =>
          obtain ⟨tail, htail, rfl⟩ := Option.map_eq_some_iff.mp h
          obtain ⟨hlength, rfl⟩ := ih.mp htail
          -- there is something behind the first group, so it is complete
          have hsize : (cs.take size).length = size := by
            have hbehind := congrArg List.length hrest
            rw [List.length_drop, List.length_cons] at hbehind
            rw [List.length_take]
            omega
          rw [List.length_append, hsize, hlength, List.take_left' hsize, List.drop_left' hsize,
            ← hrest, List.take_append_drop]
          exact ⟨rfl, rfl⟩
      · rintro ⟨hlength, rfl⟩
        have hsize : (ds.take size).length = size := by
          rw [List.length_take]
          omega
        rw [List.drop_left' hsize, List.take_left' hsize]
        show (unhyphenate (next :: sizes) _).map _ = _
        rw [ih.mpr ⟨by rw [List.length_drop]; omega, rfl⟩, Option.map_some, List.take_append_drop]

/-- The groups of 32 digits: of 8, 4, 4, 4 and 12, set off by hyphens. -/
def inGroups (ds : List Char) : List Char :=
  ds.take 8 ++ '-' :: ((ds.drop 8).take 4 ++ '-' :: ((ds.drop 12).take 4 ++
    '-' :: ((ds.drop 16).take 4 ++ '-' :: ds.drop 20)))

theorem hyphenate_groupSizes (ds : List Char) : hyphenate groupSizes ds = inGroups ds := by
  simp only [groupSizes, hyphenate, inGroups, List.drop_drop]

theorem length_inGroups {ds : List Char} (h : ds.length = 32) : (inGroups ds).length = 36 := by
  rw [← hyphenate_groupSizes, length_hyphenate h, h]
  rfl

/-! ## Forms -/

theorem unwrap_cases (cs : List Char) :
    cs = unwrap cs ∨ cs = '\x7b' :: (unwrap cs ++ ['\x7d']) ∨
      ∃ scheme, scheme.map Char.toLower = schemeName ∧ cs = scheme ++ unwrap cs := by
  unfold unwrap
  split
  case h_1 rest =>
    split
    case isTrue hlast =>
      refine .inr (.inl (congrArg (List.cons _) ?_))
      rw [List.dropLast_append_getLast? _ hlast]
    case isFalse => exact .inl rfl
  case h_2 =>
    split
    case isTrue hnames =>
      exact .inr (.inr ⟨_, of_decide_eq_true hnames, (List.take_append_drop _ _).symm⟩)
    case isFalse => exact .inl rfl

theorem unwrap_braced (cs : List Char) : unwrap ('\x7b' :: (cs ++ ['\x7d'])) = cs := by
  show (if (cs ++ ['\x7d']).getLast? = _ then _ else _) = _
  rw [if_pos List.getLast?_concat, List.dropLast_concat]

theorem unwrap_named {scheme : List Char} (h : scheme.map Char.toLower = schemeName)
    (cs : List Char) : unwrap (scheme ++ cs) = cs := by
  have hlength : scheme.length = schemeName.length := by rw [← h, List.length_map]
  have hnames : namesScheme (scheme ++ cs) = true := by
    refine decide_eq_true ?_
    rw [List.take_left' hlength, h]
  unfold unwrap
  split
  case h_1 rest hbrace =>
    -- a brace is no letter, so the name does not start with one
    cases scheme with
    | nil => cases h
    | cons c scheme =>
      rw [List.map_cons, (List.cons.inj hbrace).1] at h
      exact absurd (List.cons.inj h).1 (by decide)
  case h_2 => rw [if_pos hnames, List.drop_left' hlength]

/-- A text that starts with a digit is in no braces, and the scheme is not named before it. -/
theorem unwrap_of_digit {c : Char} {k : Nat} (hk : k < 16) (hc : c.toLower = Nat.digitChar k)
    (tail : List Char) : unwrap (c :: tail) = c :: tail := by
  have hdigit : ∀ k : Fin 16, Nat.digitChar k ≠ 'u' ∧ Nat.digitChar k ≠ '\x7b' := by decide
  obtain ⟨hletter, hbrace⟩ := hdigit ⟨k, hk⟩
  have hscheme : namesScheme (c :: tail) = false := by
    refine decide_eq_false (fun he => hletter ?_)
    rw [← hc]
    exact (List.cons.inj he).1
  unfold unwrap
  split
  case h_1 rest heq =>
    rw [(List.cons.inj heq).1] at hc
    exact absurd hc.symm hbrace
  case h_2 => rw [hscheme, if_neg Bool.false_ne_true]

theorem digitsOf?_eq_some_iff {cs ds : List Char} :
    digitsOf? cs = some ds ↔
      ds.length = 32 ∧ (cs = ds ∨ cs.length ≠ 32 ∧ unwrap cs = inGroups ds) := by
  unfold digitsOf?
  by_cases hlength : cs.length = 32
  · rw [if_pos hlength, Option.some.injEq]
    refine ⟨fun he => ⟨he ▸ hlength, .inl he⟩, ?_⟩
    rintro ⟨-, he | ⟨hne, -⟩⟩
    · exact he
    · exact absurd hlength hne
  · rw [if_neg hlength, unhyphenate_eq_some_iff, hyphenate_groupSizes]
    refine and_congr_right (fun hdigits => ?_)
    rw [or_iff_right (fun he : cs = ds => hlength (he ▸ hdigits)), and_iff_right hlength]

variable {kind : IdentifierKind}

/--
The texts from which an identifier is read. In each of them stand its digits, in any case of
the letters.
-/
inductive Spells (id : Identifier kind) : List Char → Prop where
  /-- The digits alone. -/
  | plain {ds : List Char} (h : ds.map Char.toLower = id.digits) : Spells id ds
  /-- The digits in groups. -/
  | grouped {ds : List Char} (h : ds.map Char.toLower = id.digits) : Spells id (inGroups ds)
  /-- The groups in braces. -/
  | braced {ds : List Char} (h : ds.map Char.toLower = id.digits) :
      Spells id ('\x7b' :: (inGroups ds ++ ['\x7d']))
  /-- The groups behind the name of the scheme, in any case of its letters. -/
  | named {scheme ds : List Char} (hscheme : scheme.map Char.toLower = "urn:uuid:".toList)
      (h : ds.map Char.toLower = id.digits) : Spells id (scheme ++ inGroups ds)

theorem digits_eq_iff {id : Identifier kind} {ds : List Char} :
    ds.map Char.toLower = id.digits ↔ ds.length = 32 ∧ ofHexDigits ds = some id.value := by
  rw [ofHexDigits_eq_some_iff]
  constructor
  · intro h
    have hlength : ds.length = 32 := by
      rw [← List.length_map (f := Char.toLower), h, digits, length_hexDigits]
    rw [hlength]
    exact ⟨rfl, id.value_lt, h⟩
  · rintro ⟨hlength, -, h⟩
    rwa [hlength] at h

/-- The digits of a text are those of the identifier that is read. -/
theorem ofText?_eq_some_iff_digits {s : String} {id : Identifier kind} :
    ofText? s = some id ↔
      ∃ ds, digitsOf? s.toList = some ds ∧ ds.map Char.toLower = id.digits := by
  unfold ofText?
  rw [Option.bind_eq_some_iff]
  constructor
  · rintro ⟨n, hn, hid⟩
    obtain ⟨ds, hds, hread⟩ := Option.bind_eq_some_iff.mp hn
    split at hid
    case isFalse => cases hid
    case isTrue =>
      obtain rfl := Option.some.inj hid
      exact ⟨ds, hds, digits_eq_iff.mpr ⟨(digitsOf?_eq_some_iff.mp hds).1, hread⟩⟩
  · rintro ⟨ds, hds, hdigits⟩
    refine ⟨id.value, ?_, dif_pos id.value_lt⟩
    rw [hds, Option.bind_some]
    exact (digits_eq_iff.mp hdigits).2

/-- The groups are not taken for anything around them. -/
theorem unwrap_inGroups {id : Identifier kind} {ds : List Char}
    (h : ds.map Char.toLower = id.digits) : unwrap (inGroups ds) = inGroups ds := by
  cases ds with
  | nil => exact absurd (congrArg List.length h) (by rw [digits, length_hexDigits]; decide)
  | cons c tail =>
    have hmem : c.toLower ∈ id.digits := h ▸ List.mem_cons_self
    obtain ⟨k, hk, hc⟩ := digitChar_of_mem_hexDigits hmem
    exact unwrap_of_digit hk hc _

/-- Whatever stands around the groups, the text is longer than the digits alone. -/
theorem digitsOf?_of_unwrap {id : Identifier kind} {cs ds : List Char}
    (h : ds.map Char.toLower = id.digits) (hunwrap : unwrap cs = inGroups ds)
    (hlong : (inGroups ds).length ≤ cs.length) : digitsOf? cs = some ds := by
  have hlength := (digits_eq_iff.mp h).1
  rw [length_inGroups hlength] at hlong
  exact digitsOf?_eq_some_iff.mpr ⟨hlength, .inr ⟨by omega, hunwrap⟩⟩

/-- The digits of an identifier are taken out of the texts that spell it, and of no others. -/
theorem digitsOf?_iff_spells {id : Identifier kind} {cs : List Char} :
    (∃ ds, digitsOf? cs = some ds ∧ ds.map Char.toLower = id.digits) ↔ Spells id cs := by
  constructor
  · rintro ⟨ds, hds, hdigits⟩
    obtain ⟨-, rfl | ⟨-, hgroups⟩⟩ := digitsOf?_eq_some_iff.mp hds
    · exact .plain hdigits
    · obtain he | he | ⟨scheme, hscheme, he⟩ := unwrap_cases cs <;> rw [hgroups] at he
      · exact he ▸ .grouped hdigits
      · exact he ▸ .braced hdigits
      · exact he ▸ .named hscheme hdigits
  · intro h
    cases h with
    | plain hdigits =>
      exact ⟨cs, digitsOf?_eq_some_iff.mpr ⟨(digits_eq_iff.mp hdigits).1, .inl rfl⟩, hdigits⟩
    | grouped hdigits =>
      exact ⟨_, digitsOf?_of_unwrap hdigits (unwrap_inGroups hdigits) (Nat.le_refl _), hdigits⟩
    | braced hdigits =>
      refine ⟨_, digitsOf?_of_unwrap hdigits (unwrap_braced _) ?_, hdigits⟩
      rw [List.length_cons, List.length_append]
      omega
    | named hscheme hdigits =>
      refine ⟨_, digitsOf?_of_unwrap hdigits (unwrap_named hscheme _) ?_, hdigits⟩
      rw [List.length_append]
      omega

/-- **An identifier is read from the texts that spell it**, and from no others. -/
theorem ofText?_eq_some_iff {s : String} {id : Identifier kind} :
    ofText? s = some id ↔ Spells id s.toList :=
  ofText?_eq_some_iff_digits.trans digitsOf?_iff_spells

example : ofText? "URN:uuid:67E55044-10b1-426F-9247-bb680e5fe0c8" =
    some (⟨0x67e5504410b1426f9247bb680e5fe0c8, by decide⟩ : VertexId) := by rfl

/-- An identifier is written in lower case. -/
theorem map_toLower_digits (id : Identifier kind) : id.digits.map Char.toLower = id.digits := by
  have hdigit : ∀ k : Fin 16, (Nat.digitChar k).toLower = Nat.digitChar k := by decide
  refine (List.map_congr_left fun c hc => ?_).trans (List.map_id _)
  obtain ⟨k, hk, rfl⟩ := digitChar_of_mem_hexDigits hc
  exact hdigit ⟨k, hk⟩

theorem ofText?_text (id : Identifier kind) : ofText? id.text = some id := by
  rw [ofText?_eq_some_iff, text, String.toList_ofList, hyphenate_groupSizes]
  exact .grouped id.map_toLower_digits

instance : Lawful (Identifier kind) where
  Fits _ := True
  wellFormed _ := .string _
  decode_encode id _ := ofText?_text id

end Identifier

end CheckpointLedger
