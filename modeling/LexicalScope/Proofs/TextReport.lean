import LexicalScope.Report
import Mathlib.Data.List.DropRight

/-!
A line of a text report ends behind its last name, and one without names behind its colon; a report
on no scope has no line at all. As long as the names are not empty and hold neither a comma nor a
blank character, the scopes are read back: the report is cut at the ends of its lines, and what
stands behind the label of a line is cut at the commas.
-/

namespace LexicalScope

namespace Report

/-- A name that can be told from what stands around it in a line. -/
def Legible (name : String) : Prop :=
  name ≠ "" ∧ ∀ c ∈ name.toList, c ≠ ',' ∧ Text.isBlank c = false

instance (name : String) : Decidable (Legible name) :=
  decidable_of_iff (name ≠ "" ∧ name.toList.all fun c => c != ',' && !Text.isBlank c)
    (by simp [Legible])

/-! ## The reader -/

/-- The parts between the separators. An empty text has no part, rather than an empty one. -/
def cut (separator : Char) (chars : List Char) : List (List Char) :=
  if chars.isEmpty then [] else chars.splitOn separator

/-- The flavour that the label of a line gives, and what stands behind the colon. -/
def readLabel? : List Char → Option (Bool × List Char)
  | 'f' :: 'u' :: 'n' :: 'c' :: 't' :: 'i' :: 'o' :: 'n' :: ':' :: rest => some (false, rest)
  | 'b' :: 'l' :: 'o' :: 'c' :: 'k' :: ':' :: rest => some (true, rest)
  | _ => none

/-- The names behind the colon, each after a space. -/
def readNames (chars : List Char) : List String :=
  (cut ',' chars).map fun field => String.ofList (field.drop 1)

/-- The flavour and the names of a line. -/
def readLine? (chars : List Char) : Option (Bool × List String) :=
  (readLabel? chars).map fun (block, rest) => (block, readNames rest)

/-- The flavours and names of a text report, given whether a newline was put at its end. -/
def read? (newline : Bool) (report : String) : Option (List (Bool × List String)) :=
  let body := if newline then report.toList.dropLast else report.toList
  (cut '\n' body).mapM readLine?

/-! ## Joined texts -/

/-- What was joined is cut into the same parts again. -/
theorem cut_intercalate {separator : Char} {parts : List (List Char)}
    (nonempty : ∀ part ∈ parts, part ≠ []) (clear : ∀ part ∈ parts, separator ∉ part) :
    cut separator ([separator].intercalate parts) = parts := by
  match parts with
  | [] => rfl
  | first :: rest =>
    have start : first ≠ [] := nonempty first List.mem_cons_self
    have filled : ([separator].intercalate (first :: rest)).isEmpty = false := by
      cases rest <;> simp [List.intercalate_cons_cons, start]
    rw [cut, filled, if_neg Bool.false_ne_true]
    exact List.splitOn_intercalate separator clear (List.cons_ne_nil first rest)

theorem mem_of_mem_intercalate {separator : List Char} {parts : List (List Char)} {c : Char}
    (mem : c ∈ separator.intercalate parts) : c ∈ separator ∨ ∃ part ∈ parts, c ∈ part := by
  induction parts with
  | nil => simp at mem
  | cons first rest ih =>
    match rest with
    | [] => exact .inr ⟨first, by simp, by simpa using mem⟩
    | second :: later =>
      rw [List.intercalate_cons_cons, List.mem_append, List.mem_append] at mem
      obtain (here | between) | behind := mem
      · exact .inr ⟨first, List.mem_cons_self, here⟩
      · exact .inl between
      · obtain separating | ⟨part, among, inside⟩ := ih behind
        · exact .inl separating
        · exact .inr ⟨part, List.mem_cons_of_mem _ among, inside⟩

/-- Joined texts end with the last of them. -/
theorem exists_intercalate_concat (separator : List Char) (parts : List (List Char))
    (last : List Char) : ∃ front, separator.intercalate (parts ++ [last]) = front ++ last := by
  induction parts with
  | nil => exact ⟨[], by simp⟩
  | cons first rest ih =>
    obtain ⟨front, tail⟩ := ih
    obtain ⟨second, later, shape⟩ : ∃ second later, rest ++ [last] = second :: later :=
      List.exists_cons_of_ne_nil (by simp)
    refine ⟨first ++ separator ++ front, ?_⟩
    rw [List.cons_append, shape, List.intercalate_cons_cons, ← shape, tail]
    simp

/-- The space behind a separator may as well be counted as the start of what follows it. -/
theorem cons_intercalate (separator space : Char) (first : List Char) (rest : List (List Char)) :
    space :: [separator, space].intercalate (first :: rest) =
      [separator].intercalate ((first :: rest).map (space :: ·)) := by
  induction rest generalizing first with
  | nil => simp
  | cons second later ih =>
    rw [List.intercalate_cons_cons, List.map_cons, List.map_cons, List.intercalate_cons_cons,
      ← List.map_cons, ← ih]
    simp

/-! ## The characters of a line -/

/-- The label of a line, with its colon. -/
def label (block : Bool) : List Char := (if block then "block:" else "function:").toList

/-- The names of a line, each after a space, with commas between them. -/
def fields (names : List String) : List Char :=
  [','].intercalate (names.map fun name => ' ' :: name.toList)

theorem Legible.exists_last {name : String} (legible : Legible name) :
    ∃ front last, name.toList = front ++ [last] ∧ Text.isBlank last = false := by
  have nonempty : name.toList ≠ [] := fun none => legible.1 (String.toList_eq_nil_iff.mp none)
  refine ⟨_, _, (List.dropLast_concat_getLast nonempty).symm, ?_⟩
  exact (legible.2 _ (List.getLast_mem nonempty)).2

theorem fields_concat (init : List String) (name : String) :
    ∃ front, fields (init ++ [name]) = front ++ name.toList := by
  obtain ⟨front, joined⟩ := exists_intercalate_concat [',']
    (init.map fun name => ' ' :: name.toList) (' ' :: name.toList)
  exact ⟨front ++ [' '], by simpa [fields] using joined⟩

/-- A text that ends with a character that is not blank is left as it is. -/
theorem trimEnd_of_concat {s : String} {front : List Char} {last : Char}
    (ends : s.toList = front ++ [last]) (visible : Text.isBlank last = false) :
    Text.trimEnd s = s := by
  have kept : s.toList.rdropWhile Text.isBlank = s.toList := by
    rw [ends, List.rdropWhile_concat_neg _ _ _ (by simp [visible])]
  exact (congrArg String.ofList kept).trans s.ofList_toList

/-- A line with names, before the blank characters at its end are removed. -/
theorem toList_untrimmed (block : Bool) (names : List String) (named : names ≠ []) :
    ((if block then "block" else "function") ++ ": " ++ String.intercalate ", " names).toList =
      label block ++ fields names := by
  obtain ⟨first, rest, rfl⟩ := List.exists_cons_of_ne_nil named
  have spaced : ' ' :: (String.intercalate ", " (first :: rest)).toList = fields (first :: rest) :=
    calc ' ' :: (String.intercalate ", " (first :: rest)).toList
      _ = ' ' :: [',', ' '].intercalate (first.toList :: rest.map String.toList) := by
        rw [String.toList_intercalate, List.map_cons]
        rfl
      _ = fields (first :: rest) := by
        rw [cons_intercalate, ← List.map_cons, List.map_map]
        rfl
  rw [← spaced, String.toList_append]
  cases block <;> rfl

theorem toList_line {s : Scope} (legible : ∀ name ∈ s.names, Legible name) :
    (line s).toList = label s.block ++ fields s.names := by
  rcases List.eq_nil_or_concat' s.names with none | ⟨init, name, names⟩
  · -- The space behind the colon is removed.
    rw [line, none]
    cases s.block <;> decide
  · -- The last name ends the line, and nothing is removed behind it.
    have untrimmed := toList_untrimmed s.block s.names (by simp [names])
    obtain ⟨before, behind⟩ := fields_concat init name
    obtain ⟨front, last, ends, visible⟩ := (legible name (by simp [names])).exists_last
    have closed : label s.block ++ fields s.names =
        label s.block ++ (before ++ front) ++ [last] := by
      simp [names, behind, ends]
    rw [line, trimEnd_of_concat (untrimmed.trans closed) visible, untrimmed]

theorem toList_line_ne_nil {s : Scope} (legible : ∀ name ∈ s.names, Legible name) :
    (line s).toList ≠ [] := by
  rw [toList_line legible]
  cases s.block <;> simp [label]

/-- The newline is blank, so no name breaks its line. -/
theorem newline_not_mem_line {s : Scope} (legible : ∀ name ∈ s.names, Legible name) :
    '\n' ∉ (line s).toList := by
  rw [toList_line legible]
  intro mem
  obtain labelled | listed := List.mem_append.mp mem
  · revert labelled
    cases s.block <;> decide
  · obtain separating | ⟨field, among, inside⟩ := mem_of_mem_intercalate listed
    · exact absurd separating (by decide)
    · obtain ⟨name, declared, rfl⟩ := List.mem_map.mp among
      obtain space | within := List.mem_cons.mp inside
      · exact absurd space (by decide)
      · exact absurd ((legible name declared).2 _ within).2 (by decide)

/-! ## The reader on a report -/

theorem readLabel?_append (block : Bool) (rest : List Char) :
    readLabel? (label block ++ rest) = some (block, rest) := by
  cases block <;> rfl

theorem readNames_fields {names : List String} (legible : ∀ name ∈ names, Legible name) :
    readNames (fields names) = names := by
  have parted : cut ',' (fields names) = names.map fun name => ' ' :: name.toList := by
    refine cut_intercalate (by simp) fun field among => ?_
    obtain ⟨name, declared, rfl⟩ := List.mem_map.mp among
    intro inside
    obtain space | within := List.mem_cons.mp inside
    · exact absurd space (by decide)
    · exact ((legible name declared).2 _ within).1 rfl
  rw [readNames, parted, List.map_map]
  exact (List.map_congr_left fun name _ => name.ofList_toList).trans (List.map_id _)

theorem readLine?_line {s : Scope} (legible : ∀ name ∈ s.names, Legible name) :
    readLine? (line s).toList = some (s.block, s.names) := by
  rw [toList_line legible, readLine?, readLabel?_append]
  exact congrArg (fun names => some (s.block, names)) (readNames_fields legible)

theorem mapM_readLine? {scopes : List Scope}
    (legible : ∀ s ∈ scopes, ∀ name ∈ s.names, Legible name) :
    (scopes.map fun s => (line s).toList).mapM readLine? =
      some (scopes.map fun s => (s.block, s.names)) := by
  induction scopes with
  | nil => rfl
  | cons s rest ih =>
    obtain ⟨here, later⟩ := List.forall_mem_cons.mp legible
    simp only [List.map_cons, List.mapM_cons, readLine?_line here, ih later]
    rfl

theorem read?_text {a : Analysis} (legible : ∀ s ∈ scopes a, ∀ name ∈ s.names, Legible name) :
    read? false (text a) = some ((scopes a).map fun s => (s.block, s.names)) := by
  have joined : (text a).toList = ['\n'].intercalate ((scopes a).map fun s => (line s).toList) := by
    rw [text, String.toList_intercalate, List.map_map]
    rfl
  have parted : cut '\n' (text a).toList = (scopes a).map fun s => (line s).toList := by
    rw [joined]
    refine cut_intercalate (fun chars among => ?_) (fun chars among => ?_)
    · obtain ⟨s, reported, rfl⟩ := List.mem_map.mp among
      exact toList_line_ne_nil (legible s reported)
    · obtain ⟨s, reported, rfl⟩ := List.mem_map.mp among
      exact newline_not_mem_line (legible s reported)
  calc read? false (text a)
    _ = (cut '\n' (text a).toList).mapM readLine? := rfl
    _ = some ((scopes a).map fun s => (s.block, s.names)) := by
      rw [parted, mapM_readLine? legible]

/-- The newline at the end of a report is known to the reader, which leaves it out. -/
theorem read?_append_newline (report : String) :
    read? true (report ++ "\n") = read? false report := by
  simp [read?]

/-- The text report is unambiguous: with or without a newline at its end, it is written, and the
    flavours and the names of all scopes are read back from it, in their order. -/
theorem text_unambiguous (a : Analysis)
    (legible : ∀ s ∈ a.scopes.getD [], ∀ name ∈ s.names, Legible name) (newline : Bool) :
    ∃ report, render a { format := "text", trailingNewline := newline } = .ok report ∧
      read? newline report = some ((a.scopes.getD []).map fun s => (s.block, s.names)) := by
  cases newline with
  | false => exact ⟨text a ++ "", rfl, by rw [String.append_empty]; exact read?_text legible⟩
  | true => exact ⟨text a ++ "\n", rfl, (read?_append_newline _).trans (read?_text legible)⟩

/-- Scopes without names are told from one another and from no scope. -/
theorem nameless_unambiguous :
    (∃ report, render ⟨default, none⟩ {} = .ok report ∧ read? true report = some []) ∧
      (∃ report, render ⟨default, some [.empty true]⟩ {} = .ok report ∧
        read? true report = some [(true, [])]) ∧
      ∃ report, render ⟨default, some [.empty false, .ofNames true ["a", "b$"], .empty true]⟩
          { trailingNewline := false } = .ok report ∧
        read? false report = some [(false, []), (true, ["a", "b$"]), (true, [])] :=
  ⟨text_unambiguous ⟨default, none⟩ (by decide) true,
    text_unambiguous ⟨default, some [.empty true]⟩ (by decide) true,
    text_unambiguous ⟨default, some [.empty false, .ofNames true ["a", "b$"], .empty true]⟩
      (by decide) false⟩

end Report

end LexicalScope
