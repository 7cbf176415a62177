import LexicalScope.Report
import LexicalScope.Proofs.Tokens

/-!
A value with no floating-point number and no regular expression in it is read back from its JSON
text, with the entries of every object in their order. So the text of a parsed source tells it from
every other, and the JSON report of an analysis gives back the names and errors it was made from.
-/

namespace LexicalScope

namespace Value

mutual

/-- Neither a floating-point number nor a regular expression occurs, at any depth. -/
def isPlain : Value → Bool
  | .float _ | .regex => false
  | .arr items => itemsArePlain items
  | .obj entries => entriesArePlain entries
  | _ => true

def itemsArePlain : List Value → Bool
  | [] => true
  | v :: rest => v.isPlain && itemsArePlain rest

def entriesArePlain : List (String × Value) → Bool
  | [] => true
  | (_, v) :: rest => v.isPlain && entriesArePlain rest

end

mutual

theorem isData_of_isPlain (v : Value) (plain : v.isPlain = true) : v.isData = true := by
  match v with
  | .arr items =>
    rw [isData]
    exact itemsAreData_of_plain items plain
  | .obj entries =>
    rw [isData]
    exact entriesAreData_of_plain entries plain
  | .null | .bool _ | .int _ | .str _ => rfl

theorem itemsAreData_of_plain (items : List Value) (plain : itemsArePlain items = true) :
    itemsAreData items = true := by
  match items with
  | [] => rfl
  | v :: rest =>
    obtain ⟨here, later⟩ := Bool.and_eq_true_iff.mp plain
    rw [itemsAreData, isData_of_isPlain v here, itemsAreData_of_plain rest later]
    rfl

theorem entriesAreData_of_plain (entries : List (String × Value)) (plain : entriesArePlain entries = true) :
    entriesAreData entries = true := by
  match entries with
  | [] => rfl
  | (key, v) :: rest =>
    obtain ⟨here, later⟩ := Bool.and_eq_true_iff.mp plain
    rw [entriesAreData, isData_of_isPlain v here, entriesAreData_of_plain rest later]
    rfl

end

theorem itemsArePlain_map {α : Type} {f : α → Value} (items : List α)
    (plain : ∀ a ∈ items, (f a).isPlain = true) : itemsArePlain (items.map f) = true := by
  induction items with
  | nil => rfl
  | cons a rest ih =>
    obtain ⟨here, later⟩ := List.forall_mem_cons.mp plain
    rw [List.map_cons, itemsArePlain, here, ih later]
    rfl

end Value

namespace Json

/-! ## Values -/

/-- A numeral is what starts like none of the other values. -/
theorem readValue_numeral (fuel : Nat) {c : Char} (first : c.isDigit = true ∨ c = '-') (s : List Char) :
    readValue (fuel + 1) (c :: s) = readNumber (c :: s) := by
  rw [readValue, skipSpace_cons (isSpace_of_numeral first)]
  split
  all_goals first
    | rfl
    | (rename_i same; exact absurd (List.cons.inj same).1 (ne_of_numeral first rfl (by decide)))

theorem write_first {v : Value} (plain : v.isPlain = true) (depth : Nat) :
    ∃ c after, write depth v = c :: after ∧ isSpace c = false ∧ c ≠ ']' := by
  cases v with
  | null => exact ⟨_, _, rfl, rfl, by decide⟩
  | bool b => cases b <;> exact ⟨_, _, rfl, rfl, by decide⟩
  | int n =>
    obtain ⟨c, after, shown, first⟩ := integer_first n
    exact ⟨c, after, shown, isSpace_of_numeral first, ne_of_numeral first rfl (by decide)⟩
  | str s => exact ⟨_, _, rfl, rfl, by decide⟩
  | arr items => cases items <;> exact ⟨_, _, rfl, rfl, by decide⟩
  | obj entries => cases entries <;> exact ⟨_, _, rfl, rfl, by decide⟩
  | float x => cases plain
  | regex => cases plain

theorem readValue_quote (fuel : Nat) (s : String) (rest : List Char) :
    readValue (fuel + 1) (quote s ++ rest) = some (.str s, rest) := by
  obtain ⟨text, shown, read⟩ := readText_quote s rest
  rw [shown, readValue, skipSpace_cons rfl]
  simp only [read]
  rfl

theorem readValue_items {fuel : Nat} {body rest : List Char} {items : List Value}
    (more : ∀ after, skipSpace body ≠ ']' :: after) (read : readItems fuel body = some (items, rest)) :
    readValue (fuel + 1) ('[' :: body) = some (.arr items, rest) := by
  rw [readValue, skipSpace_cons rfl]
  simp only [read]
  rfl

theorem readValue_entries {fuel : Nat} {body rest : List Char} {entries : List (String × Value)}
    (more : ∀ after, skipSpace body ≠ '\x7d' :: after)
    (read : readEntries fuel body = some (entries, rest)) :
    readValue (fuel + 1) ('\x7b' :: body) = some (.obj entries, rest) := by
  rw [readValue, skipSpace_cons rfl]
  simp only [read]
  rfl

theorem readItems_last {fuel : Nat} {s after rest : List Char} {v : Value}
    (read : readValue fuel s = some (v, after)) (closed : skipSpace after = ']' :: rest) :
    readItems (fuel + 1) s = some ([v], rest) := by
  rw [readItems, read]
  simp only [Option.bind_eq_bind, Option.bind_some, closed]
  rfl

theorem readItems_next {fuel : Nat} {s after rest : List Char} {v : Value} {items : List Value}
    (read : readValue fuel s = some (v, ',' :: after)) (later : readItems fuel after = some (items, rest)) :
    readItems (fuel + 1) s = some (v :: items, rest) := by
  rw [readItems, read]
  simp only [Option.bind_eq_bind, Option.bind_some, skipSpace_cons (show isSpace ',' = false from rfl),
    later]
  rfl

theorem readEntries_last {fuel : Nat} {key : String} {s after rest : List Char} {v : Value}
    (read : readValue fuel s = some (v, after)) (closed : skipSpace after = '\x7d' :: rest) :
    readEntries (fuel + 1) (quote key ++ ':' :: s) = some ([(key, v)], rest) := by
  obtain ⟨text, shown, name⟩ := readText_quote key (':' :: s)
  rw [shown, readEntries, skipSpace_cons rfl]
  simp only [name, Option.bind_eq_bind, Option.bind_some,
    skipSpace_cons (show isSpace ':' = false from rfl), read, closed]
  rfl

theorem readEntries_next {fuel : Nat} {key : String} {s after rest : List Char} {v : Value}
    {entries : List (String × Value)} (read : readValue fuel s = some (v, ',' :: after))
    (later : readEntries fuel after = some (entries, rest)) :
    readEntries (fuel + 1) (quote key ++ ':' :: s) = some ((key, v) :: entries, rest) := by
  obtain ⟨text, shown, name⟩ := readText_quote key (':' :: s)
  rw [shown, readEntries, skipSpace_cons rfl]
  simp only [name, Option.bind_eq_bind, Option.bind_some,
    skipSpace_cons (show isSpace ':' = false from rfl), skipSpace_cons (show isSpace ',' = false from rfl),
    read, later]
  rfl

theorem writeItems_last (depth : Nat) (v : Value) (tail : List Char) :
    writeItems depth [v] ++ tail = newline depth ++ (write depth v ++ tail) := by
  simp [writeItems]

theorem writeItems_next (depth : Nat) (v w : Value) (items : List Value) (tail : List Char) :
    writeItems depth (v :: w :: items) ++ tail =
      newline depth ++ (write depth v ++ (',' :: (writeItems depth (w :: items) ++ tail))) := by
  rw [writeItems]
  simp

theorem writeEntries_last (depth : Nat) (key : String) (v : Value) (tail : List Char) :
    writeEntries depth [(key, v)] ++ tail =
      newline depth ++ (quote key ++ ':' :: ' ' :: (write depth v ++ tail)) := by
  simp [writeEntries]

theorem writeEntries_next (depth : Nat) (key : String) (v : Value) (next : String × Value)
    (entries : List (String × Value)) (tail : List Char) :
    writeEntries depth ((key, v) :: next :: entries) ++ tail =
      newline depth ++ (quote key ++
        ':' :: ' ' :: (write depth v ++ (',' :: (writeEntries depth (next :: entries) ++ tail)))) := by
  rw [writeEntries]
  simp

theorem write_arr (depth : Nat) (item : Value) (items : List Value) (tail : List Char) :
    write depth (.arr (item :: items)) ++ tail =
      '[' :: (writeItems (depth + 1) (item :: items) ++ (newline depth ++ ']' :: tail)) := by
  simp [write]

theorem write_obj (depth : Nat) (entry : String × Value) (entries : List (String × Value))
    (tail : List Char) :
    write depth (.obj (entry :: entries)) ++ tail =
      '\x7b' :: (writeEntries (depth + 1) (entry :: entries) ++ (newline depth ++ '\x7d' :: tail)) := by
  simp [write]

theorem writeItems_open {item : Value} (plain : item.isPlain = true) (depth : Nat) (items : List Value)
    (tail after : List Char) :
    skipSpace (writeItems depth (item :: items) ++ tail) ≠ ']' :: after := by
  obtain ⟨c, more, begins, visible, bracket⟩ := write_first plain depth
  rw [writeItems, List.append_assoc, skipSpace_newline, begins, List.append_assoc, List.cons_append,
    skipSpace_cons visible]
  intro closed
  exact bracket (List.cons.inj closed).1

theorem writeEntries_open (depth : Nat) (key : String) (v : Value) (entries : List (String × Value))
    (tail after : List Char) :
    skipSpace (writeEntries depth ((key, v) :: entries) ++ tail) ≠ '\x7d' :: after := by
  rw [writeEntries, List.append_assoc, skipSpace_newline, List.append_assoc]
  intro closed
  cases closed

-- Every reading begun uses up one unit of fuel: at most one for a value and one for its place in a
-- list, so two for every character written are enough.
mutual

/-- A value is read back from its text, whatever comes after it, unless a numeral goes on there. -/
theorem readValue_write (v : Value) (plain : v.isPlain = true) (depth fuel : Nat) (rest : List Char)
    (enough : 2 * (write depth v).length ≤ fuel) (ends : EndsNumeral rest) :
    readValue fuel (write depth v ++ rest) = some (v, rest) := by
  obtain ⟨first, after, shown, _, _⟩ := write_first plain depth
  obtain ⟨fuel, rfl⟩ : ∃ less, fuel = less + 1 := by
    rw [shown, List.length_cons] at enough
    exact ⟨fuel - 1, by omega⟩
  match v with
  | .null => rfl
  | .bool true => rfl
  | .bool false => rfl
  | .int n =>
    obtain ⟨c, after, shown, first⟩ := integer_first n
    rw [write, shown, List.cons_append, readValue_numeral fuel first, ← List.cons_append, ← shown,
      readNumber_integer n ends]
  | .str s =>
    rw [write]
    exact readValue_quote fuel s rest
  | .arr [] => rfl
  | .arr (item :: items) =>
    have size := congrArg List.length (write_arr depth item items [])
    simp only [List.append_nil, List.length_cons, List.length_append] at size
    rw [write_arr]
    refine readValue_items (writeItems_open (Bool.and_eq_true_iff.mp plain).1 _ _ _) ?_
    exact readItems_write (item :: items) (List.cons_ne_nil _ _) plain _ _ _ _ (by omega)
  | .obj [] => rfl
  | .obj ((key, v) :: entries) =>
    have size := congrArg List.length (write_obj depth (key, v) entries [])
    simp only [List.append_nil, List.length_cons, List.length_append] at size
    rw [write_obj]
    refine readValue_entries (writeEntries_open _ _ _ _ _) ?_
    exact readEntries_write ((key, v) :: entries) (List.cons_ne_nil _ _) plain _ _ _ _ (by omega)

theorem readItems_write (items : List Value) (some_item : items ≠ [])
    (plain : Value.itemsArePlain items = true) (depth outer fuel : Nat) (rest : List Char)
    (enough : 2 * (writeItems depth items).length ≤ fuel) :
    readItems fuel (writeItems depth items ++ (newline outer ++ ']' :: rest)) = some (items, rest) := by
  match items with
  | [] => exact absurd rfl some_item
  | item :: others =>
    obtain ⟨here, later⟩ := Bool.and_eq_true_iff.mp plain
    simp only [writeItems, newline, List.length_append, List.length_cons] at enough
    obtain ⟨fuel, rfl⟩ : ∃ less, fuel = less + 1 := ⟨fuel - 1, by omega⟩
    match others with
    | [] =>
      have read := readValue_write item here depth fuel (newline outer ++ ']' :: rest) (by omega)
        (endsNumeral_cons (by decide) _)
      rw [← readValue_space (skipSpace_newline depth _)] at read
      rw [writeItems_last]
      refine readItems_last read ?_
      rw [skipSpace_newline, skipSpace_cons rfl]
    | next :: others =>
      have read := readValue_write item here depth fuel
        (',' :: (writeItems depth (next :: others) ++ (newline outer ++ ']' :: rest))) (by omega)
        (endsNumeral_cons (by decide) _)
      rw [← readValue_space (skipSpace_newline depth _)] at read
      rw [writeItems_next]
      exact readItems_next read
        (readItems_write (next :: others) (List.cons_ne_nil _ _) later depth outer fuel rest (by omega))

theorem readEntries_write (entries : List (String × Value)) (some_entry : entries ≠ [])
    (plain : Value.entriesArePlain entries = true) (depth outer fuel : Nat) (rest : List Char)
    (enough : 2 * (writeEntries depth entries).length ≤ fuel) :
    readEntries fuel (writeEntries depth entries ++ (newline outer ++ '\x7d' :: rest)) =
      some (entries, rest) := by
  match entries with
  | [] => exact absurd rfl some_entry
  | (key, v) :: others =>
    obtain ⟨here, later⟩ := Bool.and_eq_true_iff.mp plain
    simp only [writeEntries, newline, List.length_append, List.length_cons] at enough
    obtain ⟨fuel, rfl⟩ : ∃ less, fuel = less + 1 := ⟨fuel - 1, by omega⟩
    match others with
    | [] =>
      have read := readValue_write v here depth fuel (newline outer ++ '\x7d' :: rest) (by omega)
        (endsNumeral_cons (by decide) _)
      rw [← readValue_space (skipSpace_blank _)] at read
      rw [writeEntries_last, readEntries_space (skipSpace_newline depth _)]
      refine readEntries_last read ?_
      rw [skipSpace_newline, skipSpace_cons rfl]
    | next :: others =>
      have read := readValue_write v here depth fuel
        (',' :: (writeEntries depth (next :: others) ++ (newline outer ++ '\x7d' :: rest))) (by omega)
        (endsNumeral_cons (by decide) _)
      rw [← readValue_space (skipSpace_blank _)] at read
      rw [writeEntries_next, readEntries_space (skipSpace_newline depth _)]
      exact readEntries_next read
        (readEntries_write (next :: others) (List.cons_ne_nil _ _) later depth outer fuel rest (by omega))

end

/-! ## Whole texts -/

/-- What is written for a value is its text, and is read back also with space after it. -/
theorem text?_read {v : Value} (plain : v.isPlain = true) :
    ∃ text, text? v = some text ∧
      ∀ ending : String, (∀ c ∈ ending.toList, isSpace c = true) → parse? (text ++ ending) = some v := by
  refine ⟨String.ofList (write 0 v), if_pos (Value.isData_of_isPlain v plain), ?_⟩
  intro ending blank
  have read : readValue (2 * (write 0 v ++ ending.toList).length + 2) (write 0 v ++ ending.toList) =
      some (v, ending.toList) := by
    refine readValue_write v plain 0 _ _ ?_ (endsNumeral_space blank)
    rw [List.length_append]
    omega
  have none_left : skipSpace ending.toList = [] := List.dropWhile_eq_nil_iff.mpr blank
  simp only [parse?, String.toList_append, String.toList_ofList, read]
  simp [none_left]

end Json

/-! ## Parsed sources -/

namespace ParseError

/-- Neither a floating-point number nor a regular expression occurs in an error. -/
def isPlain (e : ParseError) : Bool := e.description.isPlain && (e.line.isPlain && e.column.isPlain)

theorem toValue_plain {errors : List ParseError} (plain : errors.all isPlain = true) :
    Value.itemsArePlain (errors.map toValue) = true := by
  refine Value.itemsArePlain_map errors fun e member => ?_
  simpa [toValue, Value.isPlain, Value.entriesArePlain, isPlain] using List.all_eq_true.mp plain e member

theorem toValue_injective : Function.Injective toValue := by
  rintro ⟨description, line, column⟩ ⟨description', line', column'⟩ same
  simpa [toValue] using same

end ParseError

namespace Parsed

/-- Neither a floating-point number nor a regular expression occurs in the tree or the errors. -/
def isPlain (p : Parsed) : Bool := p.ast.isPlain && p.errors.all ParseError.isPlain

theorem toValue_plain {p : Parsed} (plain : p.isPlain = true) : p.toValue.isPlain = true := by
  obtain ⟨tree, errors⟩ := Bool.and_eq_true_iff.mp plain
  simp [toValue, Value.isPlain, Value.entriesArePlain, tree, ParseError.toValue_plain errors]

theorem toValue_injective : Function.Injective toValue := by
  rintro ⟨ast, errors, hash, name⟩ ⟨ast', errors', hash', name'⟩ same
  simp only [toValue, Value.obj.injEq, List.cons.injEq, Prod.mk.injEq, true_and, Value.arr.injEq,
    Value.str.injEq, and_true] at same
  obtain ⟨rfl, listed, rfl, rfl⟩ := same
  obtain rfl := (List.map_inj_right ParseError.toValue_injective).mp listed
  rfl

theorem toJson_read {p : Parsed} (plain : p.isPlain = true) :
    ∃ text, p.toJson = .ok text ∧ Json.parse? text = some p.toValue := by
  obtain ⟨text, written, read⟩ := Json.text?_read (toValue_plain plain)
  refine ⟨text, by rw [toJson, written], ?_⟩
  simpa using read "" (by simp)

theorem toJson_injective {p q : Parsed} (plain : p.isPlain = true) (other : q.isPlain = true)
    (same : p.toJson = q.toJson) : p = q := by
  obtain ⟨text, written, read⟩ := toJson_read plain
  obtain ⟨text', written', read'⟩ := toJson_read other
  rw [written, written'] at same
  obtain rfl := Except.ok.inj same
  exact toValue_injective (Option.some.inj (read.symm.trans read'))

end Parsed

/-! ## Reports -/

namespace Report

theorem scopeValue_plain (s : Scope) : (scopeValue s).isPlain = true := by
  have names : Value.itemsArePlain (s.names.map .str) = true := Value.itemsArePlain_map _ fun _ _ => rfl
  simp [scopeValue, Value.isPlain, Value.entriesArePlain, names]

theorem toValue_plain {a : Analysis} (plain : a.parsed.errors.all ParseError.isPlain = true) :
    (toValue a).isPlain = true := by
  have listed := Value.itemsArePlain_map (scopes a) fun s _ => scopeValue_plain s
  simp [toValue, Value.isPlain, Value.entriesArePlain, listed, ParseError.toValue_plain plain]

theorem render_read {a : Analysis} (plain : a.parsed.errors.all ParseError.isPlain = true) (ended : Bool) :
    ∃ text, render a ⟨"json", ended⟩ = .ok text ∧ Json.parse? text = some (toValue a) := by
  obtain ⟨text, written, read⟩ := Json.text?_read (toValue_plain plain)
  refine ⟨text ++ if ended then "\n" else "", ?_, read _ ?_⟩
  · simp [render, ReportFormat.ofName?, written]
  · cases ended <;> simp [Json.isSpace]

end Report

/-- What is written of a parsed source or of its report says all that went into it: the text is read
    back as the same data, and two sources with one text are one source. -/
theorem serialisation_lossless :
    (∀ p : Parsed, p.isPlain = true →
      ∃ text, p.toJson = .ok text ∧
        Json.parse? text = some (.obj [
          ("ast", p.ast),
          ("errors", .arr (p.errors.map fun e =>
            .obj [("description", e.description), ("line", e.line), ("column", e.column)])),
          ("source_hash", .str p.sourceHash),
          ("source_name", .str p.sourceName)])) ∧
      (∀ p q : Parsed, p.isPlain = true → q.isPlain = true → p.toJson = q.toJson → p = q) ∧
      ∀ (a : Analysis) (ended : Bool), a.parsed.errors.all ParseError.isPlain = true →
        ∃ text, Report.render a { format := "json", trailingNewline := ended } = .ok text ∧
          Json.parse? text = some (.obj [
            ("source_name", .str a.parsed.sourceName),
            ("scopes", .arr ((a.scopes.getD []).map fun s =>
              .obj [("block", .bool s.block), ("defined", .arr (s.names.map .str))])),
            ("errors", .arr (a.parsed.errors.map fun e =>
              .obj [("description", e.description), ("line", e.line), ("column", e.column)]))]) := by
  refine ⟨fun p plain => ?_, fun p q plain other same => ?_, fun a ended plain => ?_⟩
  · exact Parsed.toJson_read plain
  · exact Parsed.toJson_injective plain other same
  · exact Report.render_read plain ended

/-- A tree with empty and nested containers, numbers of either sign, and characters of every kind of
    escape. -/
def Sample.awkward : Parsed where
  ast := .obj [
    ("type", .str "Program"),
    ("body", .arr [.arr [], .obj [], .arr [.int (-120), .int 0], .obj [("a\"b", .null), ("", .bool false)]]),
    ("text", .str "\"\\\n\r\t\x08\x0c\x00\x1f é😀")]
  errors := [⟨.str "Unexpected token \t", .int 1, .null⟩]
  sourceHash := "ab"
  sourceName := "<input>"

theorem Sample.awkward_lossless :
    Sample.awkward.isPlain = true ∧
      (∃ text, Sample.awkward.toJson = .ok text ∧ Json.parse? text = some Sample.awkward.toValue) ∧
      Sample.awkward.toJson ≠ { Sample.awkward with sourceName := "" }.toJson ∧
      ∃ text, Report.render ⟨Sample.awkward, none⟩ { format := "json", trailingNewline := true } = .ok text ∧
        Json.parse? text = some (.obj [
          ("source_name", .str "<input>"),
          ("scopes", .arr []),
          ("errors", .arr [.obj [("description", .str "Unexpected token \t"), ("line", .int 1),
            ("column", .null)]])]) := by
  obtain ⟨read, injective, reported⟩ := serialisation_lossless
  refine ⟨rfl, read Sample.awkward rfl, ?_, reported ⟨Sample.awkward, none⟩ true rfl⟩
  intro same
  have equal := injective _ _ rfl rfl same
  exact absurd (congrArg Parsed.sourceName equal) (by decide)

end LexicalScope
