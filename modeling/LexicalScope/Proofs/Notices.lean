import LexicalScope.Proofs.Outcomes
import Mathlib.Data.List.Forall2

/-!
A parser tells of an error by giving up with it, or by listing it in the tree that it delivers. The
text of an error is its description, or its message where it is not described. An error that the parser
gave up with is recorded under its text. A listed one is recorded under its description alone: without
one it has no text at all, and is printed as `None` although there is a message (`errors_recorded`).
-/

namespace LexicalScope

/-- An error as the parser tells of it. -/
inductive Notice where
  /-- The error that the parser gave up with. -/
  | raised (e : ParserError)
  /-- An item of the errors listed in a tree. -/
  | listed (item : Value)

/-- What a parser tells of. -/
def ParserOutcome.notices : ParserOutcome → Except Fault (List Notice)
  | .failed e => .ok [.raised e]
  | .tree ast => do
    let items ← (ast.field "errors").listed
    return items.map .listed

namespace ParseError

/-- The diagnostic for an error ends with this text. -/
def ShownAs (e : ParseError) (text : String) : Prop :=
  ∀ level source, Diagnostic.line level source e =
    level ++ " " ++ source ++ Diagnostic.location e.line e.column ++ ": " ++ text ++ "\n"

theorem shownAs_text {e : ParseError} {text : String} (described : e.description = .str text) :
    e.ShownAs text := by
  intro level source
  rw [Diagnostic.line, described]
  rfl

theorem shownAs_none {e : ParseError} (missing : e.description = .null) : e.ShownAs "None" := by
  intro level source
  rw [Diagnostic.line, missing]
  rfl

end ParseError

namespace Notice

def message : Notice → Value
  | raised e => .str e.message
  | listed item => item.field "message"

def description : Notice → Value
  | raised e => (e.description.map Value.str).getD .null
  | listed item => item.field "description"

/-- There is a message. -/
def Complete (n : Notice) : Prop := ∃ text, text ≠ "" ∧ n.message = .str text

/-- There is a description. -/
def Described (n : Notice) : Prop := ∃ text, text ≠ "" ∧ n.description = .str text

/-- The text of an error. -/
inductive Tells (n : Notice) : String → Prop where
  | description {text : String} (filled : text ≠ "") (given : n.description = .str text) : Tells n text
  | message {text : String} (bare : ¬ n.Described) (filled : text ≠ "") (given : n.message = .str text) :
      Tells n text

/-- The error is recorded under its text. -/
def Kept (n : Notice) (e : ParseError) : Prop := ∃ text, n.Tells text ∧ e.description = .str text

/-- How an error is recorded and shown. -/
inductive Recorded (n : Notice) (e : ParseError) : Prop where
  /-- With its text, if the parser gave up or described it. -/
  | told {text : String} (way : n.Described ∨ ∃ error, n = .raised error) (tells : n.Tells text)
      (described : e.description = .str text) (shown : e.ShownAs text)
  /-- Without its text, if it is listed and not described. -/
  | untold {item : Value} (listed : n = .listed item) (bare : ¬ n.Described)
      (described : e.description = item.field "description")
      (shown : item.field "description" = .null → e.ShownAs "None")

/-! ## Single errors -/

theorem Tells.filled {n : Notice} {text : String} (tells : n.Tells text) : text ≠ "" := by
  cases tells <;> assumption

theorem recorded_raised {e : ParserError} (complete : (raised e).Complete) :
    Recorded (.raised e) (ParseError.ofFailure e) := by
  obtain ⟨message, filled, given⟩ := complete
  obtain rfl : e.message = message := Value.str.inj given
  by_cases described : (raised e).Described
  · obtain ⟨text, some, given⟩ := described
    have found : e.description = .some text := by
      cases here : e.description with
      | none => simp [description, here] at given
      | some other => simpa [description, here] using given
    have same : (ParseError.ofFailure e).description = .str text := by
      simp [ParseError.ofFailure, found, some]
    exact .told (.inr ⟨e, rfl⟩) (.description some given) same (ParseError.shownAs_text same)
  · have same : (ParseError.ofFailure e).description = .str e.message := by
      cases here : e.description with
      | none => simp [ParseError.ofFailure, here]
      | some other =>
        have empty : other = "" := by
          apply Classical.byContradiction
          intro filled
          exact described ⟨other, filled, by simp [description, here]⟩
        simp [ParseError.ofFailure, here, empty]
    exact .told (.inr ⟨e, rfl⟩) (.message described filled rfl) same (ParseError.shownAs_text same)

theorem recorded_listed (item : Value) : Recorded (.listed item) (ParseError.ofEntry item) := by
  by_cases described : (listed item).Described
  · obtain ⟨text, filled, given⟩ := described
    exact .told (.inl ⟨text, filled, given⟩) (.description filled given) given (ParseError.shownAs_text given)
  · exact .untold rfl described rfl fun missing => ParseError.shownAs_none missing

theorem Complete.isObject {item : Value} (complete : (listed item).Complete) : item.isObject = true := by
  obtain ⟨text, _, given⟩ := complete
  cases item with
  | obj entries => rfl
  | _ => cases given

/-- Only an error that is listed and not described goes without its text. -/
theorem Recorded.kept_iff {n : Notice} {e : ParseError} (recorded : n.Recorded e) :
    n.Kept e ↔ ∀ item, n = .listed item → n.Described := by
  cases recorded with
  | told way tells described =>
    refine ⟨?_, fun _ => ⟨_, tells, described⟩⟩
    rintro _ item rfl
    rcases way with described | ⟨error, same⟩
    · exact described
    · cases same
  | @untold item listed bare same =>
    subst listed
    refine ⟨?_, fun all => absurd (all item rfl) bare⟩
    rintro ⟨text, tells, described⟩
    exact absurd ⟨text, tells.filled, same.symm.trans described⟩ bare

theorem kept_all_iff {notices : List Notice} {errors : List ParseError}
    (recorded : List.Forall₂ Recorded notices errors) :
    List.Forall₂ Kept notices errors ↔ ∀ item, .listed item ∈ notices → (listed item).Described := by
  induction recorded with
  | nil => simp
  | @cons n e notices errors here _ ih =>
    rw [List.forall₂_cons, here.kept_iff, ih]
    constructor
    · rintro ⟨first, later⟩ item member
      rcases List.mem_cons.mp member with same | below
      · exact same ▸ first item same.symm
      · exact later item below
    · intro all
      refine ⟨?_, fun item below => all item (List.mem_cons_of_mem n below)⟩
      rintro item rfl
      exact all item List.mem_cons_self

end Notice

namespace Parsed

/-- What a tolerant parse records of the errors that the parser tells of, as long as each has a message.
    There is a result, with one error for each that is told of, in the same order. An error that the
    parser gave up with is recorded under its text, and so is a listed one that is described; a listed
    one without a description is not, and is printed as `None`. So all errors are recorded under their
    texts exactly when every listed one is described. -/
theorem errors_recorded {outcome : ParserOutcome} {notices : List Notice}
    (told : outcome.notices = .ok notices) (complete : ∀ n ∈ notices, n.Complete)
    (source name : String) :
    ∃ p, ofOutcome outcome true source name = .ok p ∧
      List.Forall₂ Notice.Recorded notices p.errors ∧
      (List.Forall₂ Notice.Kept notices p.errors ↔
        ∀ item, .listed item ∈ notices → (Notice.listed item).Described) := by
  cases outcome with
  | failed e =>
    obtain rfl : [Notice.raised e] = notices := Except.ok.inj told
    have recorded : List.Forall₂ Notice.Recorded [.raised e] [ParseError.ofFailure e] :=
      .cons (Notice.recorded_raised (complete _ List.mem_cons_self)) .nil
    exact ⟨_, rfl, recorded, Notice.kept_all_iff recorded⟩
  | tree ast =>
    obtain ⟨items, listed, made⟩ := Reading.ok_of_bind told
    obtain rfl : items.map Notice.listed = notices := Except.ok.inj made
    rw [List.forall_mem_map] at complete
    have read := ParseError.ofTree_eq listed fun item member => (complete item member).isObject
    have recorded : List.Forall₂ Notice.Recorded (items.map .listed) (items.map ParseError.ofEntry) := by
      rw [List.forall₂_map_left_iff, List.forall₂_map_right_iff, List.forall₂_same]
      exact fun item _ => Notice.recorded_listed item
    refine ⟨⟨ast, items.map ParseError.ofEntry, Sha256.hexDigest source, name⟩, ?_, recorded,
      Notice.kept_all_iff recorded⟩
    rw [ofOutcome, if_pos rfl, read]

end Parsed

namespace Sample

/-- An error as parsers list it, at a comment that is never closed. -/
def unclosed : Value :=
  .obj [("message", .str "Error: Line 1: Unexpected token ILLEGAL"), ("index", .int 7),
    ("lineNumber", .int 1), ("column", .int 8)]

/-- The same error with a description. -/
def explained : Value :=
  .obj [("message", .str "Error: Line 1: Unexpected token ILLEGAL"), ("lineNumber", .int 1),
    ("description", .str "The comment is not closed")]

/-- A program without statements that lists errors. -/
def faulty (errors : List Value) : Value :=
  .obj [("type", .str "Program"), ("body", .arr []), ("errors", .arr errors)]

/-- Two listed errors, of which only the first is described. -/
theorem half_recorded :
    (∀ n ∈ [Notice.listed explained, .listed unclosed], n.Complete) ∧
      ∃ p, Parsed.ofOutcome (.tree (faulty [explained, unclosed])) true "/* open" "a.js" = .ok p ∧
        List.Forall₂ Notice.Recorded [.listed explained, .listed unclosed] p.errors ∧
        ¬ List.Forall₂ Notice.Kept [.listed explained, .listed unclosed] p.errors := by
  have complete : ∀ n ∈ [Notice.listed explained, .listed unclosed], n.Complete := by
    simp only [List.forall_mem_cons, List.not_mem_nil, IsEmpty.forall_iff, implies_true, and_true]
    exact ⟨⟨_, by decide, rfl⟩, _, by decide, rfl⟩
  have told : ParserOutcome.notices (.tree (faulty [explained, unclosed])) =
      .ok [.listed explained, .listed unclosed] := rfl
  obtain ⟨p, made, recorded, kept⟩ := Parsed.errors_recorded told complete "/* open" "a.js"
  refine ⟨complete, p, made, recorded, fun all => ?_⟩
  obtain ⟨text, _, given⟩ := kept.mp all unclosed (by simp)
  cases given

/-- The error has a message, and is recorded without it and printed as `None`. -/
theorem unclosed_untold :
    ParserOutcome.notices (.tree (faulty [unclosed])) = .ok [.listed unclosed] ∧
      (Notice.listed unclosed).Complete ∧
      (Notice.listed unclosed).Tells "Error: Line 1: Unexpected token ILLEGAL" ∧
      (∃ p, Parsed.ofOutcome (.tree (faulty [unclosed])) true "/* open" "a.js" = .ok p ∧
        p.errors.map ParseError.description = [.null]) ∧
      (Command.run (fun _ _ => .tree (faulty [unclosed])) workspace ["scan", "a.js"]).stderr =
        "WARNING /w/a.js:1:8: None\n" := by
  refine ⟨rfl, ⟨_, by decide, rfl⟩, .message ?_ (by decide) rfl, ⟨_, rfl, rfl⟩, rfl⟩
  rintro ⟨text, _, given⟩
  cases given

end Sample

end LexicalScope
