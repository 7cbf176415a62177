import LexicalScope.Proofs.Caching

/-!
Making directories touches no file (`makeDirectories_files`), and writing changes the one file that
the path leads to (`write_only`). An analysis makes the directory, finds the JSON text and writes it,
in this order and after everything else that can fail, so it leaves every file as it was or writes
exactly one (`run_all_or_nothing`).
-/

namespace LexicalScope

namespace FileTree

/-- The content of the file at a place, if a file stands there. -/
def content? (t : FileTree) (place : List String) : Option ByteArray :=
  match t.get? place with
  | some (.file content) => some content
  | _ => none

/-- The same files with the same contents; directories may differ. -/
def SameFiles (before after : FileTree) : Prop :=
  ∀ place, after.content? place = before.content? place

/-- The path leads to a file with this content, and all other files are as they were. -/
def WroteOnly (before after : FileTree) (p : Path) (content : ByteArray) : Prop :=
  ∃ place, after.placeOf p = .ok place ∧ after.content? place = some content ∧
    ∀ other, other ≠ place → after.content? other = before.content? other

theorem SameFiles.refl (t : FileTree) : t.SameFiles t := fun _ => rfl

theorem SameFiles.trans {t u v : FileTree} (first : t.SameFiles u) (second : u.SameFiles v) :
    t.SameFiles v :=
  fun place => (second place).trans (first place)

theorem content?_insert (t : FileTree) {place : List String} (below : place ≠ []) (entry : Entry)
    (other : List String) :
    (t.insert place entry).content? other =
      if other = place then (match entry with | .file content => some content | .directory => none)
      else t.content? other := by
  unfold content?
  rw [get?_insert]
  by_cases root : other = []
  · subst root
    simp [Ne.symm below, get?]
  · by_cases here : other = place
    · subst here
      cases entry <;> simp [root]
    · simp [root, here]

/-! ## Directories -/

theorem makeDirectory_files {t made : FileTree} {p : Path} (done : t.makeDirectory p = .ok made) :
    t.SameFiles made := by
  obtain ⟨place, _, rest⟩ := Reading.ok_of_bind done
  split at rest
  · cases rest
  · rename_i free
    obtain rfl := Except.ok.inj rest
    have nothing : t.get? place = none := by simpa using free
    have below : place ≠ [] := by
      rintro rfl
      cases nothing
    intro other
    rw [content?_insert t below]
    by_cases here : other = place
    · simp [here, content?, nothing]
    · simp [here]

theorem ensureDirectory_files {t made : FileTree} {p : Path} (done : t.ensureDirectory p = .ok made) :
    t.SameFiles made := by
  unfold ensureDirectory at done
  split at done
  · rename_i created
    obtain rfl := Except.ok.inj done
    exact makeDirectory_files created
  · split at done
    · obtain rfl := Except.ok.inj done
      exact .refl t
    · cases done

/-- The recursion goes up the path until a directory can be made, and back down. -/
theorem ensureAll_files {t made : FileTree} {anchor : Anchor} {parts : List String}
    (done : t.ensureAll anchor parts = .ok made) : t.SameFiles made := by
  induction parts generalizing t made with
  | nil =>
    obtain rfl := Except.ok.inj done
    exact .refl t
  | cons part above ih =>
    unfold ensureAll at done
    split at done
    · obtain ⟨upper, created, last⟩ := Reading.ok_of_bind done
      exact (ih created).trans (ensureDirectory_files last)
    · exact ensureDirectory_files done

theorem makeDirectories_files {t made : FileTree} {p : Path} (done : t.makeDirectories p = .ok made) :
    t.SameFiles made :=
  ensureAll_files done

/-! ## Writing -/

/-- A file can be put where a path leads without changing where it leads: the places on the way are
    directories, so the file is at none of them. -/
theorem follow_insert {t : FileTree} {start place : List String} {parts : List String} (entry : Entry)
    (leads : t.follow start parts = .ok place) (free : t.isDirectoryAt place = false) :
    (t.insert place entry).follow start parts = .ok place := by
  induction parts generalizing start with
  | nil => exact leads
  | cons part rest ih =>
    unfold follow at leads ⊢
    cases here : t.get? start with
    | none =>
      rw [here] at leads
      cases leads
    | some found =>
      rw [here] at leads
      cases found with
      | file content => cases leads
      | directory =>
        have apart : start ≠ place := by
          rintro rfl
          simp [isDirectoryAt, here] at free
        have same : (t.insert place entry).get? start = some .directory := by
          rw [get?_insert, if_neg apart, here]
          simp
        rw [same]
        dsimp only at leads ⊢
        split at leads
        · cases leads
        · rename_i short
          rw [if_neg short]
          exact ih leads

theorem placeOf_insert {t : FileTree} {p : Path} {place : List String} (entry : Entry)
    (leads : t.placeOf p = .ok place) (free : t.isDirectoryAt place = false) :
    (t.insert place entry).placeOf p = .ok place := by
  unfold placeOf at leads ⊢
  split at leads
  · cases leads
  · split at leads
    · cases leads
    · rename_i whole short
      rw [if_neg whole, if_neg short]
      exact follow_insert entry leads free

theorem write_only {t written : FileTree} {p : Path} {content : ByteArray}
    (done : t.write p content = .ok written) : t.WroteOnly written p content := by
  obtain ⟨place, leads, rest⟩ := Reading.ok_of_bind done
  split at rest
  · cases rest
  · rename_i occupied
    obtain rfl := Except.ok.inj rest
    have free : t.isDirectoryAt place = false := by simpa using occupied
    have below : place ≠ [] := by
      rintro rfl
      cases free
    refine ⟨place, placeOf_insert _ leads free, ?_, ?_⟩
    · simp [content?_insert t below]
    · intro other apart
      simp [content?_insert t below, apart]

theorem SameFiles.wroteOnly {t made written : FileTree} {p : Path} {content : ByteArray}
    (same : t.SameFiles made) (wrote : made.WroteOnly written p content) :
    t.WroteOnly written p content := by
  obtain ⟨place, leads, here, others⟩ := wrote
  exact ⟨place, leads, here, fun other apart => (others other apart).trans (same other)⟩

end FileTree

/-! ## The JSON text of a parsed source -/

namespace ParseError

/-- Something stands in what is kept of an error. -/
def Holds (e : ParseError) (u : Value) : Prop :=
  u.Occurs e.description ∨ u.Occurs e.line ∨ u.Occurs e.column

theorem toValue_isData_iff {e : ParseError} : e.toValue.isData = true ↔ ¬ e.Holds .regex := by
  simp only [toValue, Value.isData, Value.entriesAreData, Bool.and_eq_true, Value.isData_iff, Holds, not_or,
    and_true]

end ParseError

namespace Parsed

/-- A parsed source has no JSON text exactly when a regular expression stands in its tree or in one
    of its errors. -/
theorem toJson_eq_error_iff {p : Parsed} {f : Failure} :
    p.toJson = .error f ↔
      f = .notData ∧ (Value.Occurs .regex p.ast ∨ ∃ e ∈ p.errors, e.Holds .regex) := by
  have whole : p.toValue.isData = true ↔
      ¬ (Value.Occurs .regex p.ast ∨ ∃ e ∈ p.errors, e.Holds .regex) := by
    have errors : Value.itemsAreData (p.errors.map ParseError.toValue) = true ↔
        ∀ e ∈ p.errors, ¬ e.Holds .regex := by
      simp only [Value.itemsAreData_iff, List.forall_mem_map, ParseError.toValue_isData_iff]
    simp only [toValue, Value.isData, Value.entriesAreData, Bool.and_eq_true, Value.isData_iff, errors]
    simp
  cases data : p.toValue.isData with
  | true =>
    obtain ⟨text, json⟩ := toJson_eq_ok data
    rw [json]
    simp [whole.mp data]
  | false =>
    have bad : Value.Occurs .regex p.ast ∨ ∃ e ∈ p.errors, e.Holds .regex := by
      apply Classical.byContradiction
      intro clean
      rw [whole.mpr clean] at data
      cases data
    rw [toJson_eq_error data]
    simp [bad, eq_comm]

end Parsed

/-! ## Analyses -/

namespace Analysis

variable (parser : Parser) (source : String) (options : AnalysisOptions) (files : FileTree)

/-- An attempt with a directory to store the parsed source in: no file is touched when it fails, and
    when it does not, the JSON text of the parsed source is written under the digest of the source,
    and no other file is touched. -/
structure AllOrNothing (directory : Path) (attempt : Attempt Analysis) : Prop where
  nothing : ∀ f, attempt.result = .error f → files.SameFiles attempt.files
  all : ∀ a, attempt.result = .ok a → a.parsed.sourceHash = Sha256.hexDigest source ∧
    ∃ text, a.parsed.toJson = .ok text ∧
      files.WroteOnly attempt.files (directory.child (a.parsed.sourceHash ++ ".json")) text.toUTF8

theorem AllOrNothing.of_error {source : String} {files : FileTree} {directory : Path}
    {attempt : Attempt Analysis} {f : Failure} (failed : attempt.result = .error f)
    (same : files.SameFiles attempt.files) : AllOrNothing source files directory attempt := by
  refine ⟨fun _ _ => same, ?_⟩
  intro a done
  rw [failed] at done
  cases done

/-- The directory is made first, then the text is found, and the file is written last. -/
theorem store_files {a : Analysis} (digest : a.parsed.sourceHash = Sha256.hexDigest source)
    (directory : Path) :
    AllOrNothing source files directory (store { options with cache := some directory } files a) := by
  unfold store
  dsimp only
  cases made : files.makeDirectories directory with
  | error f => exact .of_error rfl (.refl files)
  | ok tree =>
    have same := FileTree.makeDirectories_files made
    unfold writeCache
    cases json : a.parsed.toJson with
    | error f => exact .of_error rfl same
    | ok text =>
      dsimp only
      cases wrote : tree.write (directory.child (a.parsed.sourceHash ++ ".json")) text.toUTF8 with
      | error f => exact .of_error rfl same
      | ok written =>
        constructor
        · intro f failed
          cases failed
        · intro b done
          obtain rfl : a = b := Except.ok.inj done
          exact ⟨digest, text, json, same.wroteOnly (FileTree.write_only wrote)⟩

theorem run_files (directory : Path) :
    AllOrNothing source files directory
      (run parser source { options with cache := some directory } files) := by
  rw [run_eq_examine, Attempt.andThen, examine_files]
  cases done : (examine parser source options files).result with
  | error f => exact .of_error rfl (.refl files)
  | ok a =>
    obtain ⟨call, made⟩ := examine_parsed parser source options files done
    obtain ⟨nothing, all⟩ :=
      store_files source options files (Parsed.ofOutcome_sourceHash made) directory
    exact ⟨nothing, all⟩

/-- With a directory that can be made and written, an analysis is stored exactly when it comes to a
    result and its tree holds no regular expression. -/
theorem run_stored_iff (directory : Path) (stores : files.Stores directory source) (a : Analysis) :
    (run parser source { options with cache := some directory } files).result = .ok a ↔
      (examine parser source options files).result = .ok a ∧ ¬ Value.Occurs .regex a.parsed.ast := by
  rw [run_eq_examine, Attempt.andThen_result, examine_files]
  cases done : (examine parser source options files).result with
  | error f => simp [Except.bind]
  | ok b =>
    obtain ⟨call, made⟩ := examine_parsed parser source options files done
    have stored := store_result source options files (Parsed.ofOutcome_sourceHash made)
      (Parsed.ofOutcome_isData made) stores
    simp only [Except.bind, stored, Except.ok.injEq]
    rw [← Value.isData_iff]
    cases tree : b.parsed.ast.isData with
    | true =>
      simp only [if_true, Except.ok.injEq]
      constructor
      · rintro rfl
        exact ⟨rfl, tree⟩
      · exact fun same => same.1
    | false =>
      simp only [Bool.false_eq_true, if_false, reduceCtorEq, false_iff, not_and]
      rintro rfl clean
      rw [tree] at clean
      cases clean

/-- All or nothing. Whatever the parser delivers and whatever is asked for, an analysis that fails
    leaves every file as it was, and one that does not writes one file, the JSON text of its parsed
    source under the digest of the source. Where the directory can be made and written, it fails only
    before it is stored or for a regular expression in its tree; and a parsed source has no JSON text
    exactly when a regular expression stands anywhere in its tree or in what is kept of an error. -/
theorem run_all_or_nothing (directory : Path) :
    AllOrNothing source files directory
        (run parser source { options with cache := some directory } files) ∧
      (files.Stores directory source → ∀ a,
        (run parser source { options with cache := some directory } files).result = .ok a ↔
          (examine parser source options files).result = .ok a ∧ ¬ Value.Occurs .regex a.parsed.ast) ∧
      ∀ (p : Parsed) (f : Failure), p.toJson = .error f ↔
        f = .notData ∧ (Value.Occurs .regex p.ast ∨ ∃ e ∈ p.errors, e.Holds .regex) :=
  ⟨run_files parser source options files directory, run_stored_iff parser source options files directory,
    fun _ _ => Parsed.toJson_eq_error_iff⟩

end Analysis

namespace Sample

/-- The literal is written into the directory that is made for it; with a regular expression in its
    place, the directory stays empty. -/
theorem literal_stored :
    (∃ a text,
      (Analysis.run (literal (.int 1)) "/a/" { cache := some ⟨.relative, ["cache"]⟩ } ⟨[], []⟩).result = .ok a ∧
        a.parsed.toJson = .ok text ∧
        FileTree.WroteOnly ⟨[], []⟩
          (Analysis.run (literal (.int 1)) "/a/" { cache := some ⟨.relative, ["cache"]⟩ } ⟨[], []⟩).files
          (Path.child ⟨.relative, ["cache"]⟩ (a.parsed.sourceHash ++ ".json")) text.toUTF8) ∧
      FileTree.SameFiles ⟨[], []⟩
        (Analysis.run (literal .regex) "/a/" { cache := some ⟨.relative, ["cache"]⟩ } ⟨[], []⟩).files := by
  constructor
  · obtain ⟨files, returns, _⟩ :=
      Analysis.run_all_or_nothing (literal (.int 1)) "/a/" {} ⟨[], []⟩ ⟨.relative, ["cache"]⟩
    have done := (returns stores _).mpr ⟨rfl, Value.isData_iff.mp rfl⟩
    obtain ⟨_, text, json, wrote⟩ := files.all _ done
    exact ⟨_, text, done, json, wrote⟩
  · obtain ⟨files, _, _⟩ :=
      Analysis.run_all_or_nothing (literal .regex) "/a/" {} ⟨[], []⟩ ⟨.relative, ["cache"]⟩
    exact files.nothing .notData rfl

end Sample

end LexicalScope
