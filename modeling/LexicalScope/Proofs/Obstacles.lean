import LexicalScope.Proofs.Malformed
import LexicalScope.Proofs.Outcomes

/-!
Given a parser that delivers nothing but well-formed programs, only files keep a scan from returning
an exit code: an input that cannot be looked up or is no text, or a report that cannot be written
(`Obstacle`). Each of the three ends the scan with a failure and no message of its own, and nothing
else does (`run_escapes_iff`).
-/

namespace LexicalScope

/-! ## Well-formed programs -/

/-- A program without a malformed node, whose errors are objects that hold data. What else is in it, a
    regular expression among others, does not matter. -/
structure Value.WellFormed (ast : Value) : Prop where
  program : ast.nodeType = .program
  sound : ∀ v ∈ Walk.visited ast, ¬ v.Malformed
  errors : ∃ items, (ast.field "errors").listed = .ok items ∧
    ∀ item ∈ items, item.isObject = true ∧ item.isData = true

namespace Value.WellFormed

variable {ast : Value}

theorem walk_fault (formed : ast.WellFormed) : (OpenScopes.walk [] ast).fault = none := by
  rw [(OpenScopes.walk_program formed.program).1]
  refine (OpenScopes.run_depth ?_ (List.cons_ne_nil _ _)).1
  intro v below
  have member : v ∈ Walk.visited ast := by
    rw [Walk.visited_node (hasField_of_program formed.program)]
    exact List.mem_cons_of_mem ast below
  exact readable_iff.mpr (formed.sound v member)

theorem ofTree (formed : ast.WellFormed) :
    ∃ errors, ParseError.ofTree ast = .ok errors ∧ ∀ e ∈ errors, e.toValue.isData = true := by
  obtain ⟨items, listed, each⟩ := formed.errors
  refine ⟨_, ParseError.ofTree_eq listed fun item member => (each item member).1, ?_⟩
  rw [List.forall_mem_map]
  exact fun item member => ParseError.ofEntry_data (each item member).2

end Value.WellFormed

/-- A parser that gives up or delivers a well-formed program. -/
def Parser.Sound (parser : Parser) : Prop :=
  ∀ call source ast, parser call source = .tree ast → ast.WellFormed

/-! ## Reports -/

namespace Report

theorem scopeValue_data (s : Scope) : (scopeValue s).isData = true := by
  have names : Value.itemsAreData (s.names.map .str) = true := by
    rw [Value.itemsAreData_iff, List.forall_mem_map]
    exact fun _ _ => rfl
  simp [scopeValue, Value.isData, Value.entriesAreData, names]

/-- The names of a report are texts, so it is data when its errors are. -/
theorem toValue_data {a : Analysis} (data : ∀ e ∈ a.parsed.errors, e.toValue.isData = true) :
    (toValue a).isData = true := by
  have listed : Value.itemsAreData ((scopes a).map scopeValue) = true := by
    rw [Value.itemsAreData_iff, List.forall_mem_map]
    exact fun s _ => scopeValue_data s
  have errors : Value.itemsAreData (a.parsed.errors.map ParseError.toValue) = true := by
    rw [Value.itemsAreData_iff, List.forall_mem_map]
    exact data
  simp [toValue, Value.isData, Value.entriesAreData, listed, errors]

end Report

/-! ## The file of a report -/

/-- Why no report can be written to a path, whatever the report. -/
inductive FileTree.Unwritable (files : FileTree) (out : Path) : FileFault → Prop where
  /-- The directory for the file cannot be made. -/
  | parent {fault : FileFault} (failed : files.makeDirectories out.parent = .error fault) :
      Unwritable files out fault
  /-- The path leads to no place for a file. -/
  | unreached {made : FileTree} {fault : FileFault} (done : files.makeDirectories out.parent = .ok made)
      (lost : made.placeOf out = .error fault) : Unwritable files out fault
  /-- A directory stands in the place of the file. -/
  | occupied {made : FileTree} {place : List String}
      (done : files.makeDirectories out.parent = .ok made) (found : made.placeOf out = .ok place)
      (directory : made.isDirectoryAt place = true) : Unwritable files out .isADirectory

namespace Command

open CommandLine

/-- Whether a report can be written is settled before the report is looked at. -/
theorem writeReport_eq_error_iff {files : FileTree} {out : Path} {report : String} {fault : FileFault} :
    writeReport files out report = .error fault ↔ files.Unwritable out fault := by
  have made_eq {made : FileTree} (done : files.makeDirectories out.parent = .ok made) :
      writeReport files out report = made.write out report.toUTF8 := by
    rw [writeReport, done]
    rfl
  have found_eq {made : FileTree} {place : List String} (found : made.placeOf out = .ok place) :
      made.write out report.toUTF8 =
        if made.isDirectoryAt place then .error .isADirectory
        else .ok (made.insert place (.file report.toUTF8)) := by
    rw [FileTree.write, found]
    rfl
  constructor
  · intro failed
    cases done : files.makeDirectories out.parent with
    | error other =>
      rw [writeReport, done] at failed
      cases failed
      exact .parent done
    | ok made =>
      rw [made_eq done] at failed
      cases found : made.placeOf out with
      | error other =>
        rw [FileTree.write, found] at failed
        cases failed
        exact .unreached done found
      | ok place =>
        rw [found_eq found] at failed
        by_cases directory : made.isDirectoryAt place = true
        · rw [if_pos directory] at failed
          cases failed
          exact .occupied done found directory
        · rw [if_neg directory] at failed
          cases failed
  · rintro (failed | ⟨done, lost⟩ | ⟨done, found, directory⟩)
    · rw [writeReport, failed]
      rfl
    · rw [made_eq done, FileTree.write, lost]
      rfl
    · rw [made_eq done, found_eq found, if_pos directory]

/-! ## The analysis of a command -/

variable (parser : Parser) (files : FileTree) (command : Scan)

/-- A command names a kind of source that there is, so that the parser is called. -/
theorem attempt_result (source : String) :
    ∃ call, (attempt parser files command source).result =
      (Parsed.ofOutcome (parser call source) (!command.settings.strict) source
        (inputPath files command.input).text).bind fun parsed =>
          (Analysis.track (analysisOptions files command) files parsed).result := by
  have known : ∃ kind, SourceType.ofName? (analysisOptions files command).sourceType = some kind := by
    unfold analysisOptions
    cases command.settings.asModule with
    | true => exact ⟨.esModule, rfl⟩
    | false => exact ⟨.script, rfl⟩
  obtain ⟨kind, known⟩ := known
  refine ⟨⟨kind, !command.settings.strict⟩, ?_⟩
  have examined : (attempt parser files command source).result =
      (Analysis.examine parser source (analysisOptions files command) files).result := by
    rw [attempt_eq_examine, Attempt.andThen_result]
    cases (Analysis.examine parser source (analysisOptions files command) files).result <;> rfl
  rw [examined, Analysis.examine, Attempt.andThen_result, Analysis.parse_files, Analysis.parse, known]
  rfl

/-- With a sound parser, an analysis lists its errors as data, unless the parser gave up for good. -/
theorem attempt_sound (sound : parser.Sound) (source : String) :
    (∃ text, (attempt parser files command source).result = .error (.parser text)) ∨
      ∃ a, (attempt parser files command source).result = .ok a ∧
        ∀ e ∈ a.parsed.errors, e.toValue.isData = true := by
  obtain ⟨call, parsed⟩ := attempt_result parser files command source
  rw [parsed]
  cases delivered : parser call source with
  | failed e =>
    cases command.settings.strict with
    | true => exact .inl ⟨e.message, rfl⟩
    | false =>
      refine .inr ⟨_, rfl, ?_⟩
      intro other member
      obtain rfl := List.mem_singleton.mp member
      exact ParseError.ofFailure_data e
  | tree ast =>
    have formed := sound call source ast delivered
    refine .inr ?_
    obtain ⟨errors, read, data⟩ : ∃ errors,
        (if (!command.settings.strict) = true then ParseError.ofTree ast else .ok []) = .ok errors ∧
          ∀ e ∈ errors, e.toValue.isData = true := by
      cases command.settings.strict with
      | true => exact ⟨[], rfl, nofun⟩
      | false => exact formed.ofTree
    simp only [Parsed.ofOutcome, read, Except.bind, Analysis.track, formed.walk_fault]
    split
    · exact ⟨_, rfl, data⟩
    · exact ⟨_, rfl, data⟩

/-! ## Obstacles -/

/-- What keeps a scan from returning, with the failure that it ends in. -/
inductive Obstacle : Failure → Prop where
  /-- The path of the input cannot be looked up. -/
  | unlocated {fault : FileFault} (lookup : lookUp files command.input = .error fault) :
      Obstacle (.file fault)
  /-- The input is a file that holds no text. -/
  | undecoded {content : ByteArray} (lookup : lookUp files command.input = .ok (some (.file content)))
      (bytes : String.fromUTF8? content = none) : Obstacle .notText
  /-- There is a report for a file, and no file for it. -/
  | unwritten {a : Analysis} {fault : FileFault} (analysed : Analysed parser files command a)
      (tree : a.hasTree = true) (file : destination command.settings ≠ "")
      (refused : files.Unwritable (.ofString (destination command.settings)) fault) :
      Obstacle (.file fault)

/-- Messages with an error among them, after the log. -/
def ReportsError (verbose : Bool) (messages : String) : Prop :=
  ∃ log text more, messages = logText verbose log ++ "ERROR" ++ text ++ "\n" ++ more

variable {parser files command}

theorem attempt_data (sound : parser.Sound) {source : String} {a : Analysis}
    (result : (attempt parser files command source).result = .ok a) :
    ∀ e ∈ a.parsed.errors, e.toValue.isData = true := by
  obtain ⟨text, gaveUp⟩ | ⟨b, done, data⟩ := attempt_sound parser files command sound source
  · rw [gaveUp] at result
    cases result
  · rw [done] at result
    cases result
    exact data

theorem render_ok {a : Analysis} (data : ∀ e ∈ a.parsed.errors, e.toValue.isData = true)
    (settings : ScanSettings) : ∃ report, Report.render a (reportOptions settings) = .ok report := by
  unfold reportOptions
  cases settings.json with
  | false => exact ⟨_, rfl⟩
  | true =>
    refine ⟨String.ofList (Json.write 0 (Report.toValue a)) ++ "\n", ?_⟩
    rw [Report.render, Json.text?, if_pos (Report.toValue_data data)]
    rfl

theorem logText_nil (verbose : Bool) : logText verbose [] = "" := by
  cases verbose <;> rfl

/-! ## What a scan leaves -/

variable {verbose : Bool}

theorem Ends.obstacle {o : Outcome} (sound : parser.Sound) (ends : Ends parser files verbose command o)
    {f : Failure} (failed : o.exit = .error f) :
    Obstacle parser files command f ∧ o.stdout = "" ∧ ∃ log, o.stderr = logText verbose log := by
  cases ends with
  | missing | directory | unparsed | treeless | printed | written => cases failed
  | unlocated lookup =>
    cases failed
    exact ⟨.unlocated lookup, rfl, [], (logText_nil verbose).symm⟩
  | undecoded lookup bytes =>
    cases failed
    exact ⟨.undecoded lookup bytes, rfl, [], (logText_nil verbose).symm⟩
  | @stopped source g reads result other =>
    obtain ⟨text, gaveUp⟩ | ⟨a, done, _⟩ := attempt_sound parser files command sound source
    · rw [gaveUp] at result
      cases result
      exact absurd rfl (other text)
    · rw [done] at result
      cases result
  | unreported reads result tree report =>
    obtain ⟨text, rendered⟩ := render_ok (attempt_data sound result) command.settings
    rw [rendered] at report
    cases report
  | unwritten reads result tree rendered file refused =>
    cases failed
    refine ⟨.unwritten ⟨_, reads, result⟩ tree file (writeReport_eq_error_iff.mp refused), rfl, ?_⟩
    exact ⟨_, rfl⟩

theorem Obstacle.ends (verbose : Bool) (sound : parser.Sound) {f : Failure}
    (obstacle : Obstacle parser files command f) :
    ∃ o, Ends parser files verbose command o ∧ o.exit = .error f := by
  cases obstacle with
  | unlocated lookup => exact ⟨_, .unlocated lookup, rfl⟩
  | undecoded lookup bytes => exact ⟨_, .undecoded lookup bytes, rfl⟩
  | unwritten analysed tree file refused =>
    obtain ⟨source, reads, result⟩ := analysed
    obtain ⟨report, rendered⟩ := render_ok (attempt_data sound result) command.settings
    exact ⟨_, .unwritten reads result tree rendered file (writeReport_eq_error_iff.mpr refused), rfl⟩

/-- The exit code one never comes without a message. -/
theorem Ends.reportsError {o : Outcome} (ends : Ends parser files verbose command o) {code : Nat}
    (returned : o.exit = .ok code) : code = 0 ∨ code = 1 ∧ ReportsError verbose o.stderr := by
  cases ends with
  | unlocated | undecoded | stopped | unreported | unwritten => cases returned
  | printed | written =>
    cases returned
    exact .inl rfl
  | missing lookup =>
    cases returned
    refine .inr ⟨rfl, [], ": Input file not found: " ++ (inputPath files command.input).text, "", ?_⟩
    have word : "ERROR: Input file not found: " = "ERROR" ++ ": Input file not found: " := rfl
    rw [word, logText_nil]
    simp only [String.append_assoc, String.empty_append, String.append_empty]
  | directory lookup =>
    cases returned
    refine .inr ⟨rfl, [], ": Failed to read " ++ (inputPath files command.input).text ++
      ": [Errno 21] Is a directory: " ++ Text.quoted (inputPath files command.input).text, "", ?_⟩
    have word : "ERROR: Failed to read " = "ERROR" ++ ": Failed to read " := rfl
    rw [word, logText_nil]
    simp only [String.append_assoc, String.empty_append, String.append_empty]
  | @unparsed source text reads result =>
    cases returned
    refine .inr ⟨rfl, (attempt parser files command source).log,
      " " ++ (inputPath files command.input).text ++ ": " ++ text, "", ?_⟩
    have word : "ERROR " = "ERROR" ++ " " := rfl
    rw [word]
    simp only [String.append_assoc, String.append_empty]
  | @treeless source a reads result tree =>
    cases returned
    refine .inr ⟨rfl, (attempt parser files command source).log, ": Parsing failed; no AST produced.",
      Diagnostic.lines true a.parsed, ?_⟩
    have word : "ERROR: Parsing failed; no AST produced.\n" =
      "ERROR" ++ ": Parsing failed; no AST produced." ++ "\n" := rfl
    rw [word]
    simp only [String.append_assoc]

/-- With a sound parser, a command line for `scan` fails to return exactly when one of the obstacles is
    in its way, and then with no output and no message but the log. Otherwise it returns zero, or one
    with an error among its messages. Where the input leads to nothing or to a directory, it returns
    one in this way. -/
theorem run_escapes_iff {words : List String}
    (accepted : CommandLine.parse words = .ok ⟨verbose, some command⟩) (sound : parser.Sound) :
    (∀ f, (run parser files words).exit = .error f ↔ Obstacle parser files command f) ∧
      (∀ f, (run parser files words).exit = .error f → (run parser files words).stdout = "" ∧
        ∃ log, (run parser files words).stderr = logText verbose log) ∧
      (∀ code, (run parser files words).exit = .ok code →
        code = 0 ∨ code = 1 ∧ ReportsError verbose (run parser files words).stderr) ∧
      ∀ entry, lookUp files command.input = .ok entry → (∀ content, entry ≠ some (.file content)) →
        (run parser files words).exit = .ok 1 ∧ ReportsError verbose (run parser files words).stderr := by
  have ends := scan_ends parser files verbose command
  rw [run_of_accepted accepted]
  refine ⟨fun f => ⟨fun failed => (ends.obstacle sound failed).1, ?_⟩,
    fun f failed => (ends.obstacle sound failed).2, fun code => ends.reportsError, ?_⟩
  · intro obstacle
    obtain ⟨o, stops, failed⟩ := obstacle.ends verbose sound
    rw [← stops.eq_scan]
    exact failed
  · intro entry lookup noFile
    have returned : (scan parser files verbose command).exit = .ok 1 := by
      rw [scan_eq, lookup]
      rcases entry with _ | ⟨content | _⟩
      · rfl
      · exact absurd rfl (noFile content)
      · rfl
    obtain zero | ⟨_, message⟩ := ends.reportsError returned
    · cases zero
    · exact ⟨returned, message⟩

end Command

namespace Sample

open Command CommandLine

/-- A working directory with a file of text, a file of one byte that is no text, and a directory. -/
def crowded : FileTree where
  workingDirectory := ["w"]
  entries := [(["w"], .directory), (["w", "a.js"], .file "var a".toUTF8),
    (["w", "b.js"], .file ⟨#[0xff]⟩), (["w", "d"], .directory)]

theorem lenient_sound : lenient.Sound := by
  intro call source ast delivered
  cases delivered
  refine ⟨rfl, ?_, _, rfl, ?_⟩
  · intro v member
    have readable : v.Readable := by
      rcases member with _ | ⟨_, _ | ⟨_, _ | ⟨_, _ | ⟨_, none⟩⟩⟩⟩
      iterate 4 exact ⟨⟨_, rfl⟩, ⟨_, rfl⟩, ⟨_, rfl⟩⟩
      cases none
    exact Value.readable_iff.mp readable
  · intro item member
    rcases member with _ | ⟨_, none⟩
    · exact ⟨rfl, rfl⟩
    · cases none

/-- A report in a file whose name is free. -/
theorem crowded_unobstructed :
    CommandLine.parse ["scan", "a.js", "--out", "r"] = .ok ⟨false, some ⟨"a.js", { out := some "r" }⟩⟩ ∧
      lenient.Sound ∧
      ∀ f, ¬ Obstacle lenient crowded ⟨"a.js", { out := some "r" }⟩ f := by
  have accepted : CommandLine.parse ["scan", "a.js", "--out", "r"] =
      .ok ⟨false, some ⟨"a.js", { out := some "r" }⟩⟩ := rfl
  refine ⟨accepted, lenient_sound, fun f obstacle => ?_⟩
  have returned : (run lenient crowded ["scan", "a.js", "--out", "r"]).exit = .ok 0 := rfl
  rw [((run_escapes_iff accepted lenient_sound).1 f).mpr obstacle] at returned
  cases returned

/-- A report for a file where a directory stands, and an input that is no text: both scans are
    accepted, and neither returns. -/
theorem crowded_escapes :
    lenient.Sound ∧
      CommandLine.parse ["scan", "a.js", "--out", "d"] = .ok ⟨false, some ⟨"a.js", { out := some "d" }⟩⟩ ∧
      (run lenient crowded ["scan", "a.js", "--out", "d"]).exit = .error (.file .isADirectory) ∧
      (run lenient crowded ["scan", "a.js", "--out", "d"]).stderr = "" ∧
      CommandLine.parse ["scan", "b.js"] = .ok ⟨false, some ⟨"b.js", {}⟩⟩ ∧
      (run lenient crowded ["scan", "b.js"]).exit = .error .notText ∧
      (run lenient crowded ["scan", "b.js"]).stderr = "" := by
  exact ⟨lenient_sound, rfl, rfl, rfl, rfl, rfl, rfl⟩

end Sample

end LexicalScope
