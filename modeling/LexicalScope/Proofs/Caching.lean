import LexicalScope.Analysis
import LexicalScope.Proofs.Descent

/-!
Storing a parsed source comes after everything else, and changes the result of an analysis in one
way only: a tree with a regular expression in it has no JSON text, so that an analysis which would
give a result without a directory to store it in fails with one.
-/

namespace LexicalScope

/-! ## Trees without regular expressions -/

namespace Value

theorem isData_field {v : Value} (data : v.isData = true) (key : String) : (v.field key).isData = true := by
  cases v with
  | obj entries =>
    rw [field]
    cases found : entries.lookup key with
    | none => rfl
    | some w => exact entriesAreData_iff.mp data key w (mem_of_lookup found)
  | _ => rfl

theorem isData_listed {v : Value} {items : List Value} (data : v.isData = true)
    (listed : v.listed = .ok items) :
    ∀ item ∈ items, item.isData = true := by
  cases listed ▸ v.listed_listing with
  | items list =>
    subst list
    exact itemsAreData_iff.mp data
  | texts _ texts _ =>
    intro item member
    obtain ⟨s, rfl⟩ := texts item member
    rfl

end Value

namespace ParseError

theorem toValue_data {description line column : Value} (first : description.isData = true)
    (second : line.isData = true) (third : column.isData = true) :
    (toValue ⟨description, line, column⟩).isData = true := by
  simp [toValue, Value.isData, Value.entriesAreData, first, second, third]

theorem ofFailure_data (e : ParserError) : (ofFailure e).toValue.isData = true := by
  have number_data : ∀ n, (number n).isData = true := by
    rintro (_ | n) <;> rfl
  exact toValue_data rfl (number_data e.line) (number_data e.column)

/-- What is recorded of an item that is an object. -/
def ofEntry (item : Value) : ParseError :=
  ⟨item.field "description", item.field "lineNumber", item.field "column"⟩

theorem ofEntry_data {item : Value} (data : item.isData = true) : (ofEntry item).toValue.isData = true :=
  toValue_data (Value.isData_field data _) (Value.isData_field data _) (Value.isData_field data _)

theorem ofTree_eq {ast : Value} {items : List Value} (listed : (ast.field "errors").listed = .ok items)
    (objects : ∀ item ∈ items, item.isObject = true) : ofTree ast = .ok (items.map ofEntry) := by
  rw [ofTree, listed]
  exact Reading.mapM_of_forall fun item member => if_pos (objects item member)

/-- The errors listed in a tree hold no more than the tree does. -/
theorem ofTree_data {ast : Value} {errors : List ParseError} (data : ast.isData = true)
    (read : ofTree ast = .ok errors) : ∀ e ∈ errors, e.toValue.isData = true := by
  obtain ⟨items, listed, each⟩ := Reading.ok_of_bind read
  intro e member
  obtain ⟨item, found, made⟩ := Reading.mem_of_mapM each e member
  have whole := Value.isData_listed (Value.isData_field data "errors") listed item found
  unfold ofItem at made
  split at made
  · obtain rfl := Except.ok.inj made
    exact ofEntry_data whole
  · cases made

end ParseError

namespace Parsed

theorem toValue_isData {p : Parsed}
    (errors : p.ast.isData = true → ∀ e ∈ p.errors, e.toValue.isData = true) :
    p.toValue.isData = p.ast.isData := by
  cases tree : p.ast.isData with
  | false => simp [toValue, Value.isData, Value.entriesAreData, tree]
  | true =>
    have listed : Value.itemsAreData (p.errors.map ParseError.toValue) = true := by
      rw [Value.itemsAreData_iff, List.forall_mem_map]
      exact errors tree
    simp [toValue, Value.isData, Value.entriesAreData, tree, listed]

theorem ofOutcome_cases {outcome : ParserOutcome} {tolerant : Bool} {source name : String} {p : Parsed}
    (made : ofOutcome outcome tolerant source name = .ok p) :
    (∃ e, tolerant = true ∧ outcome = .failed e ∧
      p = ⟨.null, [.ofFailure e], Sha256.hexDigest source, name⟩) ∨
    ∃ ast errors, outcome = .tree ast ∧ (if tolerant then ParseError.ofTree ast else .ok []) = .ok errors ∧
      p = ⟨ast, errors, Sha256.hexDigest source, name⟩ := by
  cases outcome with
  | failed e =>
    cases tolerant with
    | true => exact .inl ⟨e, rfl, rfl, (Except.ok.inj made).symm⟩
    | false => cases made
  | tree ast =>
    unfold ofOutcome at made
    dsimp only at made
    split at made
    · cases made
    · rename_i errors read
      exact .inr ⟨ast, errors, rfl, read, (Except.ok.inj made).symm⟩

/-- Only its tree can keep a parsed source from having a JSON text. -/
theorem ofOutcome_isData {outcome : ParserOutcome} {tolerant : Bool} {source name : String} {p : Parsed}
    (made : ofOutcome outcome tolerant source name = .ok p) : p.toValue.isData = p.ast.isData := by
  refine toValue_isData fun data => ?_
  obtain ⟨e, _, _, rfl⟩ | ⟨ast, errors, _, read, rfl⟩ := ofOutcome_cases made
  · simpa using ParseError.ofFailure_data e
  · cases tolerant with
    | true => exact ParseError.ofTree_data data read
    | false =>
      obtain rfl : [] = errors := Except.ok.inj read
      simp

theorem ofOutcome_sourceHash {outcome : ParserOutcome} {tolerant : Bool} {source name : String} {p : Parsed}
    (made : ofOutcome outcome tolerant source name = .ok p) : p.sourceHash = Sha256.hexDigest source := by
  obtain ⟨e, _, _, rfl⟩ | ⟨ast, errors, _, _, rfl⟩ := ofOutcome_cases made <;> rfl

theorem toJson_eq_ok {p : Parsed} (data : p.toValue.isData = true) : ∃ text, p.toJson = .ok text :=
  ⟨_, by rw [toJson, Json.text?, if_pos data]⟩

theorem toJson_eq_error {p : Parsed} (data : p.toValue.isData = false) : p.toJson = .error .notData := by
  rw [toJson, Json.text?, data]
  rfl

end Parsed

/-! ## Files -/

namespace FileTree

/-- Whether a file can be written does not depend on what is written: a text consists of characters that
    UTF-8 can encode, with no half of a surrogate pair among them. -/
theorem write_ok {t written : FileTree} {p : Path} {content : ByteArray}
    (possible : t.write p content = .ok written) (other : ByteArray) :
    ∃ written, t.write p other = .ok written := by
  obtain ⟨place, found, rest⟩ := Reading.ok_of_bind possible
  split at rest
  · cases rest
  · rename_i free
    refine ⟨t.insert place (.file other), ?_⟩
    simp only [write, found]
    exact if_neg free

/-- The directory can be made, and a file can be written in it under the digest of the source. -/
def Stores (t : FileTree) (directory : Path) (source : String) : Prop :=
  ∃ made, t.makeDirectories directory = .ok made ∧
    ∃ content written,
      made.write (directory.child (Sha256.hexDigest source ++ ".json")) content = .ok written

end FileTree

/-! ## Analyses -/

namespace Attempt

variable {α β : Type}

theorem andThen_result (first : Attempt α) (second : FileTree → α → Attempt β) :
    (first.andThen second).result = first.result.bind fun a => (second first.files a).result := by
  unfold andThen
  cases first.result <;> rfl

end Attempt

namespace Analysis

variable (parser : Parser) (source : String) (options : AnalysisOptions) (files : FileTree)

/-- The analysis up to the point where it is stored. -/
def examine : Attempt Analysis := (parse parser source options files).andThen (track options)

theorem run_eq_examine (cache : Option Path) :
    run parser source { options with cache := cache } files =
      (examine parser source options files).andThen (store { options with cache := cache }) := rfl

theorem parse_files : (parse parser source options files).files = files := by
  unfold parse
  cases SourceType.ofName? options.sourceType <;> rfl

theorem track_files (parsed : Parsed) : (track options files parsed).files = files := by
  unfold track
  split
  · dsimp only
    split <;> rfl
  · rfl

/-- The files are not looked at before the analysis is stored. -/
theorem examine_files : (examine parser source options files).files = files := by
  unfold examine Attempt.andThen
  split
  · exact parse_files parser source options files
  · rw [parse_files]
    exact track_files options files _

theorem track_parsed {parsed : Parsed} {a : Analysis} (done : (track options files parsed).result = .ok a) :
    a.parsed = parsed := by
  unfold track at done
  split at done
  · dsimp only at done
    split at done
    · cases done
    · obtain rfl := Except.ok.inj done
      rfl
  · obtain rfl := Except.ok.inj done
    rfl

theorem examine_parsed {a : Analysis} (done : (examine parser source options files).result = .ok a) :
    ∃ call, Parsed.ofOutcome (parser call source) options.tolerant source options.sourceName =
      .ok a.parsed := by
  rw [examine, Attempt.andThen_result] at done
  obtain ⟨parsed, read, tracked⟩ := Reading.ok_of_bind done
  obtain rfl := track_parsed _ _ tracked
  unfold parse at read
  split at read
  · cases read
  · exact ⟨_, read⟩

/-- What is stored is the JSON text of the parsed source, if it has one. -/
theorem store_result {directory : Path} {a : Analysis} (same : a.parsed.sourceHash = Sha256.hexDigest source)
    (data : a.parsed.toValue.isData = a.parsed.ast.isData) (stores : files.Stores directory source) :
    (store { options with cache := some directory } files a).result =
      if a.parsed.ast.isData then .ok a else .error .notData := by
  obtain ⟨made, created, content, written, possible⟩ := stores
  simp only [store, created, Attempt.andThen_result, writeCache]
  cases tree : a.parsed.ast.isData with
  | false =>
    rw [Parsed.toJson_eq_error (data.trans tree)]
    rfl
  | true =>
    obtain ⟨text, json⟩ := Parsed.toJson_eq_ok (data.trans tree)
    obtain ⟨after, wrote⟩ := FileTree.write_ok possible text.toUTF8
    rw [json]
    dsimp only
    rw [same, wrote]
    rfl

/-- A directory to store the parsed source in makes no difference to an analysis, but for a tree with
    a regular expression in it: then the analysis fails where it would have given a result. -/
theorem run_cached (directory : Path) (stores : files.Stores directory source) :
    ((run parser source { options with cache := some directory } files).result =
      (run parser source { options with cache := none } files).result.bind fun a =>
        if a.parsed.ast.isData then .ok a else .error .notData) ∧
    ((run parser source { options with cache := some directory } files).result =
        (run parser source { options with cache := none } files).result ↔
      ∀ a, (run parser source { options with cache := none } files).result = .ok a →
        a.parsed.ast.isData = true) := by
  have plain : (run parser source { options with cache := none } files).result =
      (examine parser source options files).result := by
    rw [run_eq_examine, Attempt.andThen_result]
    cases (examine parser source options files).result <;> rfl
  have stored : (run parser source { options with cache := some directory } files).result =
      (examine parser source options files).result.bind fun a =>
        if a.parsed.ast.isData then .ok a else .error .notData := by
    rw [run_eq_examine, Attempt.andThen_result, examine_files]
    cases done : (examine parser source options files).result with
    | error f => rfl
    | ok a =>
      obtain ⟨call, made⟩ := examine_parsed parser source options files done
      exact store_result source options files (Parsed.ofOutcome_sourceHash made)
        (Parsed.ofOutcome_isData made) stores
  rw [plain, stored]
  refine ⟨rfl, ?_⟩
  cases (examine parser source options files).result with
  | error f => simp [Except.bind]
  | ok a => cases tree : a.parsed.ast.isData <;> simp [Except.bind, tree]

end Analysis

namespace Sample

/-- A parser that finds one literal in every source. -/
def literal (value : Value) : Parser := fun _ _ =>
  .tree (.obj [("type", .str "Program"), ("body", .arr [.obj [("type", .str "Literal"), ("value", value)]])])

theorem stores : FileTree.Stores ⟨[], []⟩ ⟨.relative, ["cache"]⟩ "/a/" := by
  have digest : Sha256.hexDigest "/a/" =
      "8290412f79ac2bb6e927f2d4a78c43cab07e1190f511a2600fac68f72b2acba4" := by
    decide +kernel
  rw [FileTree.Stores, digest]
  exact ⟨_, rfl, .empty, _, rfl⟩

theorem literal_cached :
    FileTree.Stores ⟨[], []⟩ ⟨.relative, ["cache"]⟩ "/a/" ∧
      (Analysis.run (literal (.int 1)) "/a/" { cache := some ⟨.relative, ["cache"]⟩ } ⟨[], []⟩).result =
        (Analysis.run (literal (.int 1)) "/a/" { cache := none } ⟨[], []⟩).result := by
  refine ⟨stores, ?_⟩
  refine (Analysis.run_cached (literal (.int 1)) "/a/" {} ⟨[], []⟩ ⟨.relative, ["cache"]⟩ stores).2.mpr ?_
  rintro a done
  obtain rfl := Except.ok.inj done
  rfl

/-- With a regular expression in the tree, the same directory turns a result into a failure. -/
theorem regex_not_cached :
    FileTree.Stores ⟨[], []⟩ ⟨.relative, ["cache"]⟩ "/a/" ∧
      (∃ a, (Analysis.run (literal .regex) "/a/" { cache := none } ⟨[], []⟩).result = .ok a ∧
        a.scopes = some [Scope.empty false]) ∧
      (Analysis.run (literal .regex) "/a/" { cache := some ⟨.relative, ["cache"]⟩ } ⟨[], []⟩).result =
        .error .notData := by
  exact ⟨stores, ⟨_, rfl, rfl⟩, rfl⟩

end Sample

end LexicalScope
