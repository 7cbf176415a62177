import LexicalScope.Command
import LexicalScope.Proofs.Encapsulation
import LexicalScope.Proofs.Storing

/-!
Every way in which a scan can end, with what it leaves (`Ends`, `scan_ends`). The exit code is zero
exactly when the input was read and its analysis has a tree, and then the report goes to the file
asked for or else to standard output. Any other exit code is one, and nothing but messages has been
put out (`run_delivers`).
-/

namespace LexicalScope

namespace Parsed

/-- Without tolerance no errors are listed. -/
theorem ofOutcome_errors {outcome : ParserOutcome} {source name : String} {p : Parsed}
    (made : ofOutcome outcome false source name = .ok p) : p.errors = [] := by
  obtain ⟨e, tolerant, _, _⟩ | ⟨ast, errors, _, read, rfl⟩ := ofOutcome_cases made
  · cases tolerant
  · exact (Except.ok.inj read).symm

end Parsed

namespace Command

open CommandLine

/-! ## The input -/

/-- The path from the root that the input of a command spells. -/
def inputPath (files : FileTree) (input : String) : Path :=
  ⟨.root, (Path.ofString input).absolute files.workingDirectory⟩

/-- What the input of a command leads to. -/
def lookUp (files : FileTree) (input : String) : Except FileFault (Option Entry) :=
  if (Path.ofString input).hasNull then .error .nullInPath else files.find (inputPath files input)

/-- The input leads to a file that holds this text, but for its line ends. -/
def Reads (files : FileTree) (input source : String) : Prop :=
  ∃ content text, lookUp files input = .ok (some (.file content)) ∧
    String.fromUTF8? content = some text ∧ source = String.ofList (Text.unifyNewlines text.toList)

/-- What a command asks of an analysis. -/
def analysisOptions (files : FileTree) (command : Scan) : AnalysisOptions where
  sourceName := (inputPath files command.input).text
  tolerant := !command.settings.strict
  sourceType := if command.settings.asModule then "module" else "script"

/-- The analysis of a source that a command asks for. -/
def attempt (parser : Parser) (files : FileTree) (command : Scan) (source : String) : Attempt Analysis :=
  Analysis.run parser source (analysisOptions files command) files

/-- The input was read, and its analysis came to a result. -/
def Analysed (parser : Parser) (files : FileTree) (command : Scan) (a : Analysis) : Prop :=
  ∃ source, Reads files command.input source ∧ (attempt parser files command source).result = .ok a

/-- How the report of a command is written. -/
def reportOptions (settings : ScanSettings) : ReportOptions :=
  { format := if settings.json then "json" else "text" }

/-- The file asked for, empty when there is none. -/
def destination (settings : ScanSettings) : String := settings.out.getD ""

theorem Reads.unique {files : FileTree} {input source other : String} (reads : Reads files input source)
    (again : Reads files input other) : source = other := by
  obtain ⟨content, text, found, decoded, rfl⟩ := reads
  obtain ⟨content', text', found', decoded', rfl⟩ := again
  rw [found] at found'
  cases found'
  rw [decoded] at decoded'
  cases decoded'
  rfl

/-! ## The ends of a scan -/

variable (parser : Parser) (files : FileTree) (verbose : Bool) (command : Scan)

/-- What a scan leaves, for every way in which it can end. -/
inductive Ends : Outcome → Prop where
  /-- The path of the input cannot be looked up. -/
  | unlocated {fault : FileFault} (lookup : lookUp files command.input = .error fault) :
      Ends ⟨.error (.file fault), "", "", [], files⟩
  /-- Nothing is there. -/
  | missing (lookup : lookUp files command.input = .ok none) :
      Ends ⟨.ok 1, "",
        "ERROR: Input file not found: " ++ (inputPath files command.input).text ++ "\n", [], files⟩
  /-- A directory is there. -/
  | directory (lookup : lookUp files command.input = .ok (some .directory)) :
      Ends ⟨.ok 1, "",
        "ERROR: Failed to read " ++ (inputPath files command.input).text ++
          ": [Errno 21] Is a directory: " ++ Text.quoted (inputPath files command.input).text ++ "\n",
        [], files⟩
  /-- The file is no text. -/
  | undecoded {content : ByteArray} (lookup : lookUp files command.input = .ok (some (.file content)))
      (bytes : String.fromUTF8? content = none) : Ends ⟨.error .notText, "", "", [], files⟩
  /-- The parser gave up for good. -/
  | unparsed {source text : String} (reads : Reads files command.input source)
      (result : (attempt parser files command source).result = .error (.parser text)) :
      Ends ⟨.ok 1, "", logText verbose (attempt parser files command source).log ++ "ERROR " ++
          (inputPath files command.input).text ++ ": " ++ text ++ "\n",
        (attempt parser files command source).calls, files⟩
  /-- The tree cannot be gone through, or its errors cannot be listed. -/
  | stopped {source : String} {f : Failure} (reads : Reads files command.input source)
      (result : (attempt parser files command source).result = .error f)
      (other : ∀ text, f ≠ .parser text) :
      Ends ⟨.error f, "", logText verbose (attempt parser files command source).log,
        (attempt parser files command source).calls, files⟩
  /-- The parser gave up, and delivered no tree. -/
  | treeless {source : String} {a : Analysis} (reads : Reads files command.input source)
      (result : (attempt parser files command source).result = .ok a) (tree : a.hasTree = false) :
      Ends ⟨.ok 1, "", logText verbose (attempt parser files command source).log ++
          "ERROR: Parsing failed; no AST produced.\n" ++ Diagnostic.lines true a.parsed,
        (attempt parser files command source).calls, files⟩
  /-- The report has no JSON text. -/
  | unreported {source : String} {a : Analysis} {f : Failure} (reads : Reads files command.input source)
      (result : (attempt parser files command source).result = .ok a) (tree : a.hasTree = true)
      (report : Report.render a (reportOptions command.settings) = .error f) :
      Ends ⟨.error f, "", logText verbose (attempt parser files command source).log,
        (attempt parser files command source).calls, files⟩
  /-- The report is printed. -/
  | printed {source report : String} {a : Analysis} (reads : Reads files command.input source)
      (result : (attempt parser files command source).result = .ok a) (tree : a.hasTree = true)
      (rendered : Report.render a (reportOptions command.settings) = .ok report)
      (noFile : destination command.settings = "") :
      Ends ⟨.ok 0, report, logText verbose (attempt parser files command source).log ++
          Diagnostic.lines command.settings.strict a.parsed,
        (attempt parser files command source).calls, files⟩
  /-- The report is written. -/
  | written {source report : String} {a : Analysis} {after : FileTree}
      (reads : Reads files command.input source)
      (result : (attempt parser files command source).result = .ok a) (tree : a.hasTree = true)
      (rendered : Report.render a (reportOptions command.settings) = .ok report)
      (file : destination command.settings ≠ "")
      (wrote : writeReport files (.ofString (destination command.settings)) report = .ok after) :
      Ends ⟨.ok 0, "", logText verbose (attempt parser files command source).log ++
          Diagnostic.lines command.settings.strict a.parsed,
        (attempt parser files command source).calls, after⟩
  /-- The report cannot be written. -/
  | unwritten {source report : String} {a : Analysis} {fault : FileFault}
      (reads : Reads files command.input source)
      (result : (attempt parser files command source).result = .ok a) (tree : a.hasTree = true)
      (rendered : Report.render a (reportOptions command.settings) = .ok report)
      (file : destination command.settings ≠ "")
      (refused : writeReport files (.ofString (destination command.settings)) report = .error fault) :
      Ends ⟨.error (.file fault), "", logText verbose (attempt parser files command source).log,
        (attempt parser files command source).calls, files⟩

/-- The input is looked up before anything else is done. -/
theorem scan_eq :
    scan parser files verbose command =
      match lookUp files command.input with
      | .error fault => ⟨.error (.file fault), "", "", [], files⟩
      | .ok entry =>
        scanEntry parser files verbose command.settings (inputPath files command.input).text entry := by
  unfold scan lookUp inputPath
  dsimp only
  split <;> rfl

/-- An analysis is not stored on behalf of a command. -/
theorem attempt_eq_examine (source : String) :
    attempt parser files command source =
      (Analysis.examine parser source (analysisOptions files command) files).andThen .done := rfl

theorem attempt_files (source : String) : (attempt parser files command source).files = files := by
  have examined := Analysis.examine_files parser source (analysisOptions files command) files
  rw [attempt_eq_examine, Attempt.andThen]
  split
  · exact examined
  · exact examined

theorem attempt_parsed {source : String} {a : Analysis}
    (done : (attempt parser files command source).result = .ok a) :
    ∃ call, Parsed.ofOutcome (parser call source) (!command.settings.strict) source
      (inputPath files command.input).text = .ok a.parsed := by
  rw [attempt_eq_examine, Attempt.andThen_result] at done
  obtain ⟨b, examined, same⟩ := Reading.ok_of_bind done
  obtain rfl : b = a := Except.ok.inj same
  exact Analysis.examine_parsed parser source (analysisOptions files command) files examined

/-- A strict analysis lists no errors. -/
theorem attempt_strict {source : String} {a : Analysis} (strict : command.settings.strict = true)
    (done : (attempt parser files command source).result = .ok a) : a.parsed.errors = [] := by
  obtain ⟨call, made⟩ := attempt_parsed parser files command done
  rw [strict] at made
  exact Parsed.ofOutcome_errors made

/-- Errors count only in a strict analysis, which lists none, so a report that is delivered leads to
    the exit code zero. -/
theorem deliver_eq {settings : ScanSettings} {a : Analysis}
    (strict : settings.strict = true → a.parsed.errors = []) (report log : String)
    (calls : List ParserCall) :
    deliver files settings a report log calls =
      if destination settings = "" then
        ⟨.ok 0, report, log ++ Diagnostic.lines settings.strict a.parsed, calls, files⟩
      else
        match writeReport files (.ofString (destination settings)) report with
        | .error fault => ⟨.error (.file fault), "", log, calls, files⟩
        | .ok after => ⟨.ok 0, "", log ++ Diagnostic.lines settings.strict a.parsed, calls, after⟩ := by
  have code : (if settings.strict && !a.parsed.errors.isEmpty then 1 else 0) = 0 := by
    cases given : settings.strict with
    | false => rfl
    | true => simp [strict given]
  unfold deliver
  dsimp only
  rw [code]
  by_cases noFile : destination settings = ""
  · have empty : (settings.out.getD "").isEmpty = true := String.isEmpty_iff.mpr noFile
    exact (if_pos empty).trans (if_pos noFile).symm
  · have filled : ¬ (settings.out.getD "").isEmpty = true := fun empty => noFile (String.isEmpty_iff.mp empty)
    exact (if_neg filled).trans (if_neg noFile).symm

theorem deliver_ends {source report : String} {a : Analysis} (reads : Reads files command.input source)
    (result : (attempt parser files command source).result = .ok a) (tree : a.hasTree = true)
    (rendered : Report.render a (reportOptions command.settings) = .ok report) :
    Ends parser files verbose command
      (deliver files command.settings a report
        (logText verbose (attempt parser files command source).log)
        (attempt parser files command source).calls) := by
  rw [deliver_eq files fun strict => attempt_strict parser files command strict result]
  by_cases noFile : destination command.settings = ""
  · rw [if_pos noFile]
    exact .printed reads result tree rendered noFile
  · rw [if_neg noFile]
    cases wrote : writeReport files (.ofString (destination command.settings)) report with
    | error fault => exact .unwritten reads result tree rendered noFile wrote
    | ok after => exact .written reads result tree rendered noFile wrote

theorem finish_ends {source : String} (reads : Reads files command.input source) :
    Ends parser files verbose command
      (finish command.settings (inputPath files command.input).text
        (logText verbose (attempt parser files command source).log)
        (attempt parser files command source)) := by
  unfold finish
  rw [attempt_files]
  cases result : (attempt parser files command source).result with
  | error f =>
    cases f
    case parser text => exact .unparsed reads result
    all_goals exact .stopped reads result (by simp)
  | ok a =>
    dsimp only
    by_cases tree : a.hasTree = true
    · rw [if_pos tree]
      cases rendered : Report.render a (reportOptions command.settings) with
      | error f =>
        rw [reportOptions] at rendered
        rw [rendered]
        exact .unreported reads result tree rendered
      | ok report =>
        have ended := deliver_ends parser files verbose command reads result tree rendered
        rw [reportOptions] at rendered
        rw [rendered]
        exact ended
    · rw [if_neg tree]
      exact .treeless reads result (by simpa using tree)

/-- With a text to analyse, a scan is what follows its analysis. -/
theorem scan_of_reads {source : String} (reads : Reads files command.input source) :
    scan parser files verbose command =
      finish command.settings (inputPath files command.input).text
        (logText verbose (attempt parser files command source).log)
        (attempt parser files command source) := by
  obtain ⟨content, text, lookup, decoded, rfl⟩ := reads
  rw [scan_eq, lookup]
  simp only [scanEntry, decoded]
  rfl

/-- A scan ends in one of these ways. -/
theorem scan_ends : Ends parser files verbose command (scan parser files verbose command) := by
  cases lookup : lookUp files command.input with
  | error fault =>
    rw [scan_eq, lookup]
    exact .unlocated lookup
  | ok entry =>
    cases entry with
    | none =>
      rw [scan_eq, lookup]
      exact .missing lookup
    | some entry =>
      cases entry with
      | directory =>
        rw [scan_eq, lookup]
        exact .directory lookup
      | file content =>
        cases decoded : String.fromUTF8? content with
        | none =>
          rw [scan_eq, lookup]
          simp only [scanEntry, decoded]
          exact .undecoded lookup decoded
        | some text =>
          have reads : Reads files command.input _ := ⟨content, text, lookup, decoded, rfl⟩
          rw [scan_of_reads parser files verbose command reads]
          exact finish_ends parser files verbose command reads

variable {parser files verbose command}

/-- What follows an analysis that came to a tree with a report. -/
theorem scan_of_report {source report : String} {a : Analysis} (reads : Reads files command.input source)
    (result : (attempt parser files command source).result = .ok a) (tree : a.hasTree = true)
    (rendered : Report.render a (reportOptions command.settings) = .ok report) :
    scan parser files verbose command =
      deliver files command.settings a report (logText verbose (attempt parser files command source).log)
        (attempt parser files command source).calls := by
  rw [reportOptions] at rendered
  rw [scan_of_reads parser files verbose command reads, finish, result, attempt_files]
  dsimp only
  rw [if_pos tree, rendered]

/-- Each of the ways in which a scan can end says what the scan leaves. -/
theorem Ends.eq_scan {o : Outcome} (ends : Ends parser files verbose command o) :
    o = scan parser files verbose command := by
  cases ends with
  | unlocated lookup => rw [scan_eq, lookup]
  | missing lookup =>
    rw [scan_eq, lookup]
    rfl
  | directory lookup =>
    rw [scan_eq, lookup]
    rfl
  | undecoded lookup bytes =>
    rw [scan_eq, lookup]
    simp only [scanEntry, bytes]
  | unparsed reads result =>
    rw [scan_of_reads parser files verbose command reads, finish, result, attempt_files]
  | @stopped source f reads result other =>
    rw [scan_of_reads parser files verbose command reads, finish, result, attempt_files]
    cases f
    case parser text => exact absurd rfl (other text)
    all_goals rfl
  | treeless reads result tree =>
    rw [scan_of_reads parser files verbose command reads, finish, result, attempt_files]
    simp [tree]
  | unreported reads result tree report =>
    rw [reportOptions] at report
    rw [scan_of_reads parser files verbose command reads, finish, result, attempt_files]
    dsimp only
    rw [if_pos tree, report]
  | printed reads result tree rendered noFile =>
    have strict := fun given => attempt_strict parser files command given result
    rw [scan_of_report reads result tree rendered, deliver_eq files strict, if_pos noFile]
  | written reads result tree rendered file wrote =>
    have strict := fun given => attempt_strict parser files command given result
    rw [scan_of_report reads result tree rendered, deliver_eq files strict, if_neg file, wrote]
  | unwritten reads result tree rendered file refused =>
    have strict := fun given => attempt_strict parser files command given result
    rw [scan_of_report reads result tree rendered, deliver_eq files strict, if_neg file, refused]

/-! ## Reports -/

/-- The report is put out once: in the file asked for, and no other file is touched, or, when none is
    asked for, on standard output, and no file is touched. -/
def Delivers (before : FileTree) (settings : ScanSettings) (report : String) (o : Outcome) : Prop :=
  if destination settings = "" then o.stdout = report ∧ o.files = before
  else o.stdout = "" ∧ before.WroteOnly o.files (.ofString (destination settings)) report.toUTF8

theorem writeReport_wrote {out : Path} {report : String} {after : FileTree}
    (wrote : writeReport files out report = .ok after) : files.WroteOnly after out report.toUTF8 := by
  obtain ⟨made, directories, last⟩ := Reading.ok_of_bind wrote
  exact (FileTree.makeDirectories_files directories).wroteOnly (FileTree.write_only last)

/-- What a scan comes to that returns: a tree and its report, or neither. -/
inductive Returns (parser : Parser) (files : FileTree) (command : Scan) (o : Outcome) : Prop where
  | report {a : Analysis} {report : String} (code : o.exit = .ok 0)
      (analysed : Analysed parser files command a) (tree : a.hasTree = true)
      (rendered : Report.render a (reportOptions command.settings) = .ok report)
      (delivers : Delivers files command.settings report o)
  | nothing (code : o.exit = .ok 1) (none : ∀ a, Analysed parser files command a → a.hasTree = false)
      (silent : o.stdout = "") (same : o.files = files)

theorem Analysed.result {source : String} {a : Analysis} (analysed : Analysed parser files command a)
    (reads : Reads files command.input source) : (attempt parser files command source).result = .ok a := by
  obtain ⟨other, again, result⟩ := analysed
  rwa [reads.unique again]

theorem Analysed.unique {a b : Analysis} (analysed : Analysed parser files command a)
    (again : Analysed parser files command b) : a = b := by
  obtain ⟨source, reads, result⟩ := again
  have same := analysed.result reads
  rw [result] at same
  exact (Except.ok.inj same).symm

theorem Ends.returns {o : Outcome} (ends : Ends parser files verbose command o) {code : Nat}
    (returned : o.exit = .ok code) : Returns parser files command o := by
  -- What was not read was not analysed.
  have unread {entry : Option Entry} (lookup : lookUp files command.input = .ok entry)
      (noFile : ∀ content, entry ≠ some (.file content)) :
      ∀ a, Analysed parser files command a → a.hasTree = false := by
    rintro a ⟨source, ⟨content, text, found, _⟩, _⟩
    rw [lookup] at found
    exact absurd (Except.ok.inj found) (noFile content)
  cases ends with
  | unlocated | undecoded | stopped | unreported | unwritten => cases returned
  | missing lookup => exact .nothing rfl (unread lookup (by simp)) rfl rfl
  | directory lookup => exact .nothing rfl (unread lookup (by simp)) rfl rfl
  | unparsed reads result =>
    refine .nothing rfl (fun a analysed => ?_) rfl rfl
    rw [analysed.result reads] at result
    cases result
  | treeless reads result tree =>
    refine .nothing rfl (fun a analysed => ?_) rfl rfl
    rw [analysed.result reads] at result
    cases result
    exact tree
  | printed reads result tree rendered noFile =>
    refine .report rfl ⟨_, reads, result⟩ tree rendered ?_
    rw [Delivers, if_pos noFile]
    exact ⟨rfl, rfl⟩
  | written reads result tree rendered file wrote =>
    refine .report rfl ⟨_, reads, result⟩ tree rendered ?_
    rw [Delivers, if_neg file]
    exact ⟨rfl, writeReport_wrote wrote⟩

/-- The command with its report on standard output. -/
def printing (command : Scan) : Scan := { command with settings := { command.settings with out := none } }

/-- A scan that returns would have returned the same code with the same messages had no file been asked
    for. -/
theorem Ends.printing {o : Outcome} (ends : Ends parser files verbose command o) {code : Nat}
    (returned : o.exit = .ok code) :
    ∃ plain, Ends parser files verbose (printing command) plain ∧ plain.exit = o.exit ∧
      plain.stderr = o.stderr := by
  cases ends with
  | unlocated | undecoded | stopped | unreported | unwritten => cases returned
  | missing lookup => exact ⟨_, .missing lookup, rfl, rfl⟩
  | directory lookup => exact ⟨_, .directory lookup, rfl, rfl⟩
  | unparsed reads result => exact ⟨_, .unparsed reads result, rfl, rfl⟩
  | treeless reads result tree => exact ⟨_, .treeless reads result tree, rfl, rfl⟩
  | printed reads result tree rendered _ => exact ⟨_, .printed reads result tree rendered rfl, rfl, rfl⟩
  | written reads result tree rendered _ _ => exact ⟨_, .printed reads result tree rendered rfl, rfl, rfl⟩

theorem run_of_accepted {words : List String}
    (accepted : CommandLine.parse words = .ok ⟨verbose, some command⟩) :
    run parser files words = scan parser files verbose command := by
  rw [run, accepted]

theorem analysed_strict (strict : command.settings.strict = true) :
    ∀ a, Analysed parser files command a → a.parsed.errors = [] := by
  rintro a ⟨source, _, result⟩
  exact attempt_strict parser files command strict result

/-- A command line for `scan` that returns an exit code returns zero exactly when the input was read
    and its analysis has a tree, and one otherwise. With a tree, the report is put out once, in the file
    asked for or on standard output. With the exit code one there is no output, and the files are what
    they were. A strict analysis lists no errors, so that they never count against a report. The same
    command without a file returns the same exit code with the same messages, and prints what it would
    have written. -/
theorem run_delivers {words : List String}
    (accepted : CommandLine.parse words = .ok ⟨verbose, some command⟩) {code : Nat}
    (returned : (run parser files words).exit = .ok code) :
    (code = 0 ↔ ∃ a, Analysed parser files command a ∧ a.hasTree = true) ∧
      (code = 0 ∨ code = 1) ∧
      (∀ a, Analysed parser files command a → a.hasTree = true →
        ∃ report, Report.render a (reportOptions command.settings) = .ok report ∧
          Delivers files command.settings report (run parser files words) ∧
          ∀ plain, CommandLine.parse plain = .ok ⟨verbose, some (printing command)⟩ →
            (run parser files plain).stdout = report ∧ (run parser files plain).files = files) ∧
      (code = 1 → (run parser files words).stdout = "" ∧ (run parser files words).files = files) ∧
      (command.settings.strict = true → ∀ a, Analysed parser files command a → a.parsed.errors = []) ∧
      ∀ plain, CommandLine.parse plain = .ok ⟨verbose, some (printing command)⟩ →
        (run parser files plain).exit = .ok code ∧
          (run parser files plain).stderr = (run parser files words).stderr := by
  have ends := scan_ends parser files verbose command
  rw [run_of_accepted accepted] at returned ⊢
  obtain ⟨bare, printing, sameCode, sameText⟩ := ends.printing returned
  have rerun : ∀ plain, CommandLine.parse plain = .ok ⟨verbose, some (Command.printing command)⟩ →
      run parser files plain = bare := by
    intro plain again
    rw [run_of_accepted again, printing.eq_scan]
  have strict : command.settings.strict = true →
      ∀ a, Analysed parser files command a → a.parsed.errors = [] := analysed_strict
  have messages : ∀ plain, CommandLine.parse plain = .ok ⟨verbose, some (Command.printing command)⟩ →
      (run parser files plain).exit = .ok code ∧
        (run parser files plain).stderr = (scan parser files verbose command).stderr := by
    intro plain again
    rw [rerun plain again]
    exact ⟨sameCode.trans returned, sameText⟩
  cases ends.returns returned with
  | nothing exit none silent same =>
    obtain rfl : 1 = code := Except.ok.inj (exit.symm.trans returned)
    have treeless : ∀ a, Analysed parser files command a → a.hasTree = true → False := by
      intro a analysed tree
      rw [none a analysed] at tree
      cases tree
    refine ⟨⟨nofun, ?_⟩, .inr rfl, ?_, fun _ => ⟨silent, same⟩, strict, messages⟩
    · rintro ⟨a, analysed, tree⟩
      exact (treeless a analysed tree).elim
    · intro a analysed tree
      exact (treeless a analysed tree).elim
  | @report a report exit analysed tree rendered delivers =>
    obtain rfl : 0 = code := Except.ok.inj (exit.symm.trans returned)
    refine ⟨⟨fun _ => ⟨a, analysed, tree⟩, fun _ => rfl⟩, .inl rfl, ?_, nofun, strict, messages⟩
    intro b analysedB _
    obtain rfl := analysed.unique analysedB
    refine ⟨report, rendered, delivers, fun plain again => ?_⟩
    rw [rerun plain again]
    cases printing.returns (sameCode.trans returned) with
    | nothing exit => cases exit.symm.trans (sameCode.trans returned)
    | @report b again exit analysedB _ renderedB deliversB =>
      obtain rfl : a = b := analysed.unique analysedB
      obtain rfl : report = again := Except.ok.inj (rendered.symm.trans renderedB)
      simpa [Delivers, destination, Command.printing] using deliversB

end Command

namespace Sample

/-- A parser that finds the declaration of one variable in every source, and goes past one error. -/
def lenient : Parser := fun _ _ =>
  .tree (.obj [("type", .str "Program"), ("body", .arr [declaration "var" "a"]),
    ("errors", .arr [.obj [("message", .str "Line 1: Unexpected token"), ("lineNumber", .int 1)]])])

/-- A file `a.js` in the working directory. -/
def workspace : FileTree := ⟨["w"], [(["w"], .directory), (["w", "a.js"], .file "var a".toUTF8)]⟩

open Command in
/-- A strict scan with its report in a file, and the same scan without the file. -/
theorem strict_delivered :
    CommandLine.parse ["scan", "--strict", "a.js", "--out", "r/s"] =
        .ok ⟨false, some ⟨"a.js", { out := some "r/s", strict := true }⟩⟩ ∧
      (run lenient workspace ["scan", "--strict", "a.js", "--out", "r/s"]).exit = .ok 0 ∧
      workspace.WroteOnly (run lenient workspace ["scan", "--strict", "a.js", "--out", "r/s"]).files
        (.ofString "r/s") "function: a\n".toUTF8 ∧
      (run lenient workspace ["scan", "a.js", "--strict"]).stdout = "function: a\n" := by
  have accepted : CommandLine.parse ["scan", "--strict", "a.js", "--out", "r/s"] =
      .ok ⟨false, some ⟨"a.js", { out := some "r/s", strict := true }⟩⟩ := rfl
  have returned : (run lenient workspace ["scan", "--strict", "a.js", "--out", "r/s"]).exit = .ok 0 := rfl
  have analysed : ∃ a, Analysed lenient workspace ⟨"a.js", { out := some "r/s", strict := true }⟩ a ∧
      a.hasTree = true ∧ Report.render a (reportOptions { strict := true }) = .ok "function: a\n" :=
    ⟨_, ⟨_, ⟨_, _, rfl, rfl, rfl⟩, rfl⟩, rfl, rfl⟩
  obtain ⟨a, analysed, tree, text⟩ := analysed
  obtain ⟨_, _, delivered, _⟩ := run_delivers accepted returned
  obtain ⟨report, rendered, delivers, bare⟩ := delivered a analysed tree
  obtain rfl : report = "function: a\n" := Except.ok.inj (rendered.symm.trans text)
  rw [Delivers, if_neg (by decide)] at delivers
  exact ⟨accepted, returned, delivers.2, (bare ["scan", "a.js", "--strict"] rfl).1⟩

end Sample

end LexicalScope
