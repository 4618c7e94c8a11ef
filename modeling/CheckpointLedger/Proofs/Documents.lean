import CheckpointLedger.Proofs.Lexing

/-!
# Documents that were written

A document that was written is read as the document that it was. The reader takes the
tokens one by one and keeps on a stack what is open around the value that comes next, so
the statement is about a value **anywhere in a document**: from where a value may start, its
characters bring the reader to where the value is complete, whatever is open around it
and whatever stands behind (`run_print`). A value may start in two places, of which one is
behind the bracket that opens an array (`Starts`).

Nothing is assumed of a document but that the fractions of its numbers consist of digits
(`Json.WellFormed`), which the type does not say.
-/

namespace CheckpointLedger

/-- Whether the numbers of a document can be written. -/
inductive Json.WellFormed : Json → Prop where
  | null : WellFormed .null
  | bool (b : Bool) : WellFormed (.bool b)
  | number {n : Numeral} (h : n.WellFormed) : WellFormed (.number n)
  | string (content : Option String) : WellFormed (.string content)
  | array {items : List Json} (h : ∀ v ∈ items, WellFormed v) : WellFormed (.array items)
  | object {members : List (Option String × Json)} (h : ∀ m ∈ members, WellFormed m.2) :
      WellFormed (.object members)

theorem Json.WellFormed.ofMembers {members : List (String × Json)}
    (h : ∀ m ∈ members, m.2.WellFormed) : (Json.ofMembers members).WellFormed := by
  refine .object (fun m hm => ?_)
  obtain ⟨p, hp, rfl⟩ := List.mem_map.mp hm
  exact h p hp

namespace Reader

open Token (Stops)

/-- One token is taken off the front and handed to the reader. -/
theorem run_token {reader s : Reader} {c : Char} {tail after : List Char} {t : Token}
    (hblank : Token.isBlank c = false) (hlex : Token.lex (c :: tail) = some (t, after))
    (hstep : reader.step t = some s) : reader.run (c :: tail) = s.run after := by
  rw [run]
  rw [hblank, if_neg Bool.false_ne_true]
  split
  · rename_i hnone
    rw [hlex] at hnone
    cases hnone
  · rename_i t' after' hsome
    rw [hlex] at hsome
    cases hsome
    rw [hstep]

/-- The same, if it is known of the front only that it is no blank. -/
theorem run_lex {reader s : Reader} {cs after : List Char} {t : Token}
    (hblank : ∀ c ∈ cs.head?, Token.isBlank c = false) (hlex : Token.lex cs = some (t, after))
    (hstep : reader.step t = some s) : reader.run cs = s.run after := by
  cases cs with
  | nil => cases hlex
  | cons c tail => exact run_token (hblank c rfl) hlex hstep

/-- Whether a value may start here, around which this is open. -/
def Starts (reader : Reader) (outer : List Enclosing) : Prop :=
  ∀ t, t ≠ .closeArray → reader.step t = startValue outer t

theorem starts_value (outer : List Enclosing) : Starts (value outer) outer := fun _ _ => rfl

theorem starts_arrayStart (outer : List Enclosing) :
    Starts (arrayStart outer) (.array [] :: outer) := by
  intro t ht
  cases t with
  | closeArray => exact absurd rfl ht
  | _ => rfl

/-- A string is a value, or the name of a member. -/
theorem run_printString {reader next : Reader} {content : Option String} {rest : List Char}
    (hstep : reader.step (.string content) = some next) :
    reader.run (Json.printString content ++ rest) = next.run rest := by
  refine run_lex (fun c hc => ?_) (Token.lex_printString content rest) hstep
  obtain rfl : '"' = c := by
    cases content <;> exact Option.some.inj hc
  rfl

theorem run_numeral {reader next : Reader} {n : Numeral} (hn : n.WellFormed) {rest : List Char}
    (hrest : Stops rest) (hstep : reader.step (.atom (.number n)) = some next) :
    reader.run (n.print ++ rest) = next.run rest := by
  refine run_lex (fun c hc => ?_) (Token.lex_numeral hn hrest) hstep
  obtain ⟨d, tail, hprint, hd⟩ := Token.exists_print_eq n
  rw [hprint] at hc
  obtain rfl : d = c := Option.some.inj hc
  rcases hd with rfl | hdigit
  · rfl
  · -- no blank is a digit
    unfold Token.isBlank
    rw [Bool.eq_false_iff]
    intro hblank
    simp only [Bool.or_eq_true, beq_iff_eq] at hblank
    rcases hblank with ((rfl | rfl) | rfl) | rfl <;> cases hdigit

theorem stops_printItems (items : List Json) (rest : List Char) :
    Stops (Json.printItems items ++ rest) := by
  cases items with
  | nil => exact Token.stops_cons (.inr (.inl rfl))
  | cons v items => exact Token.stops_cons (.inl rfl)

theorem stops_printMembers (members : List (Option String × Json)) (rest : List Char) :
    Stops (Json.printMembers members ++ rest) := by
  cases members with
  | nil => exact Token.stops_cons (.inr (.inr rfl))
  | cons m members => exact Token.stops_cons (.inl rfl)

/-- A member is read where its name may stand, if its value is read where a value may. -/
theorem run_member {reader : Reader} {members : List (Option String × Json)}
    {outer : List Enclosing} {label : Option String} {v : Json} {rest : List Char}
    (hname : reader.step (.string label) = some (colon members label outer))
    (hvalue : (value (.object members label :: outer)).run (v.print ++ rest) =
      (complete v (.object members label :: outer)).run rest) :
    reader.run (Json.printString label ++ ':' :: (v.print ++ rest)) =
      (objectRest ((label, v) :: members) outer).run rest := by
  rw [run_printString hname,
    run_token (s := value (.object members label :: outer)) rfl rfl rfl, hvalue]
  rfl

mutual

/-- **The characters of a value bring the reader from its start to its end.** -/
theorem run_print : ∀ {v : Json}, v.WellFormed → ∀ {reader : Reader} {outer : List Enclosing},
    Starts reader outer → ∀ {rest : List Char}, Stops rest →
    reader.run (v.print ++ rest) = (complete v outer).run rest
  | .null, _, _, _, hr, _, _ => run_token rfl rfl (hr _ nofun)
  | .bool true, _, _, _, hr, _, _ => run_token rfl rfl (hr _ nofun)
  | .bool false, _, _, _, hr, _, _ => run_token rfl rfl (hr _ nofun)
  | .number _, hv, _, _, hr, _, hrest => by
    cases hv with
    | number hn => exact run_numeral hn hrest (hr _ nofun)
  | .string _, _, _, _, hr, _, _ => run_printString (hr _ nofun)
  | .array [], _, reader, outer, hr, rest, _ => by
    -- the array is closed where its first item might have started
    show reader.run ('[' :: ']' :: rest) = _
    rw [run_token (s := arrayStart outer) rfl rfl (hr .openArray nofun)]
    exact run_token rfl rfl rfl
  | .array (item :: items), hv, reader, outer, hr, rest, hrest => by
    cases hv with
    | array h =>
      show reader.run ('[' :: (item.print ++ Json.printItems items ++ rest)) = _
      rw [run_token (s := arrayStart outer) rfl rfl (hr .openArray nofun), List.append_assoc,
        run_print (h item List.mem_cons_self) (starts_arrayStart outer)
          (stops_printItems items rest)]
      exact run_printItems (fun v hv => h v (List.mem_cons_of_mem _ hv)) [item] outer hrest
  | .object [], _, reader, outer, hr, rest, _ => by
    show reader.run ('\x7b' :: '\x7d' :: rest) = _
    rw [run_token (s := objectStart outer) rfl rfl (hr .openObject nofun)]
    exact run_token rfl rfl rfl
  | .object ((label, v) :: members), hv, reader, outer, hr, rest, hrest => by
    cases hv with
    | object h =>
      show reader.run ('\x7b' :: (Json.printString label ++ ':' ::
        v.print ++ Json.printMembers members ++ rest)) = _
      rw [run_token (s := objectStart outer) rfl rfl (hr .openObject nofun),
        List.append_assoc, List.append_assoc, List.cons_append,
        run_member rfl (run_print (h _ List.mem_cons_self) (starts_value _)
          (stops_printMembers members rest))]
      exact run_printMembers (fun m hm => h m (List.mem_cons_of_mem _ hm)) [(label, v)] outer hrest

/-- From behind an item the rest of an array brings the reader to its end. -/
theorem run_printItems : ∀ {items : List Json}, (∀ v ∈ items, v.WellFormed) →
    ∀ (before : List Json) (outer : List Enclosing) {rest : List Char}, Stops rest →
    (arrayRest before outer).run (Json.printItems items ++ rest) =
      (complete (.array (before.reverse ++ items)) outer).run rest
  | [], _, before, outer, _, _ => by
    rw [List.append_nil]
    exact run_token rfl rfl rfl
  | item :: items, h, before, outer, rest, hrest => by
    show (arrayRest before outer).run (',' :: (item.print ++ Json.printItems items ++ rest)) = _
    rw [run_token (s := value (.array before :: outer)) rfl rfl rfl, List.append_assoc,
      run_print (h item List.mem_cons_self) (starts_value _) (stops_printItems items rest)]
    -- the items before are kept last first
    have hitems := run_printItems (fun v hv => h v (List.mem_cons_of_mem _ hv)) (item :: before)
      outer hrest
    rw [List.reverse_cons, List.append_assoc] at hitems
    exact hitems

/-- From behind a member the rest of an object brings the reader to its end. -/
theorem run_printMembers : ∀ {members : List (Option String × Json)},
    (∀ m ∈ members, m.2.WellFormed) → ∀ (before : List (Option String × Json))
    (outer : List Enclosing) {rest : List Char}, Stops rest →
    (objectRest before outer).run (Json.printMembers members ++ rest) =
      (complete (.object (before.reverse ++ members)) outer).run rest
  | [], _, before, outer, _, _ => by
    rw [List.append_nil]
    exact run_token rfl rfl rfl
  | (label, v) :: members, h, before, outer, rest, hrest => by
    show (objectRest before outer).run (',' :: (Json.printString label ++ ':' ::
      v.print ++ Json.printMembers members ++ rest)) = _
    rw [run_token (s := name before outer) rfl rfl rfl, List.append_assoc, List.append_assoc,
      List.cons_append, run_member rfl (run_print (h _ List.mem_cons_self) (starts_value _)
        (stops_printMembers members rest))]
    have hmembers := run_printMembers (fun m hm => h m (List.mem_cons_of_mem _ hm))
      ((label, v) :: before) outer hrest
    rw [List.reverse_cons, List.append_assoc] at hmembers
    exact hmembers

end

end Reader

/-- **A document that was written is read as the document that it was.** -/
theorem Json.parse_render {v : Json} (hv : v.WellFormed) : Json.parse v.render = some v := by
  unfold parse render
  rw [String.toList_ofList, ← List.append_nil v.print,
    Reader.run_print hv (Reader.starts_value []) Token.stops_nil, Reader.complete, Reader.run]
  rfl

end CheckpointLedger
