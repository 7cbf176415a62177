import LexicalScope.CommandLine.Invocation
import LexicalScope.Report
import LexicalScope.Text

/-!
What the program prints, writes and returns for a command line, given a file tree and a parser.
`scan` reads a file, analyses it, delivers the report to a file or to standard output, and prints
the errors of the source to standard error.
-/

namespace LexicalScope

/-- What a run of the program leaves: its exit code, or the failure that ended it. -/
structure Outcome where
  exit : Except Failure Nat
  stdout : String
  stderr : String
  calls : List ParserCall
  files : FileTree

/-! ## Diagnostics -/

namespace Diagnostic

/-- The line and column after a file name; a column needs a line. -/
def location (line column : Value) : String :=
  match line, column with
  | .null, _ => ""
  | line, .null => ":" ++ line.display
  | line, column => ":" ++ line.display ++ ":" ++ column.display

def line (level sourceName : String) (e : ParseError) : String :=
  level ++ " " ++ sourceName ++ location e.line e.column ++ ": " ++ e.description.display ++ "\n"

/-- The lines printed for the errors of a source; only strict reading calls them errors. -/
def lines (strict : Bool) (parsed : Parsed) : String :=
  String.join (parsed.errors.map (line (if strict then "ERROR" else "WARNING") parsed.sourceName))

end Diagnostic

namespace Command

open CommandLine

def logText (verbose : Bool) (log : List Record) : String :=
  if verbose then String.join (log.map fun record => record.line ++ "\n") else ""

/-- Writes a report to the file asked for, in a directory that is made where missing. -/
def writeReport (files : FileTree) (out : Path) (report : String) : Except FileFault FileTree := do
  let made ← files.makeDirectories out.parent
  made.write out report.toUTF8

/-- The report on standard output, or in the file asked for, with what else is printed. -/
def deliver (files : FileTree) (settings : ScanSettings) (a : Analysis) (report log : String)
    (calls : List ParserCall) : Outcome :=
  let stderr := log ++ Diagnostic.lines settings.strict a.parsed
  let exit := if settings.strict && !a.parsed.errors.isEmpty then 1 else 0
  let out := settings.out.getD ""
  if out.isEmpty then ⟨.ok exit, report, stderr, calls, files⟩
  else
    match writeReport files (.ofString out) report with
    | .error f => ⟨.error (.file f), "", log, calls, files⟩
    | .ok written => ⟨.ok exit, "", stderr, calls, written⟩

/-- What follows the analysis of a file. -/
def finish (settings : ScanSettings) (name log : String) (attempt : Attempt Analysis) : Outcome :=
  match attempt.result with
  | .error (.parser message) =>
    ⟨.ok 1, "", log ++ "ERROR " ++ name ++ ": " ++ message ++ "\n", attempt.calls, attempt.files⟩
  | .error f => ⟨.error f, "", log, attempt.calls, attempt.files⟩
  | .ok a =>
    if a.hasTree then
      match Report.render a { format := if settings.json then "json" else "text" } with
      | .error f => ⟨.error f, "", log, attempt.calls, attempt.files⟩
      | .ok report => deliver attempt.files settings a report log attempt.calls
    else
      ⟨.ok 1, "",
        log ++ "ERROR: Parsing failed; no AST produced.\n" ++ Diagnostic.lines true a.parsed,
        attempt.calls, attempt.files⟩

def analyse (parser : Parser) (files : FileTree) (verbose : Bool) (settings : ScanSettings)
    (name source : String) : Outcome :=
  let attempt := Analysis.run parser source
    { sourceName := name
      tolerant := !settings.strict
      sourceType := if settings.asModule then "module" else "script" } files
  finish settings name (logText verbose attempt.log) attempt

/-- The command `scan` on what its input leads to. -/
def scanEntry (parser : Parser) (files : FileTree) (verbose : Bool) (settings : ScanSettings)
    (name : String) : Option Entry → Outcome
  | none => ⟨.ok 1, "", "ERROR: Input file not found: " ++ name ++ "\n", [], files⟩
  | some .directory =>
    ⟨.ok 1, "",
      "ERROR: Failed to read " ++ name ++ ": [Errno 21] Is a directory: " ++ Text.quoted name ++
        "\n",
      [], files⟩
  | some (.file content) =>
    match String.fromUTF8? content with
    | none => ⟨.error .notText, "", "", [], files⟩
    | some text =>
      analyse parser files verbose settings name (String.ofList (Text.unifyNewlines text.toList))

/-- The command `scan`. Its input is made absolute, name by name, before anything is looked up. -/
def scan (parser : Parser) (files : FileTree) (verbose : Bool) (command : Scan) : Outcome :=
  let input := Path.ofString command.input
  if input.hasNull then ⟨.error (.file .nullInPath), "", "", [], files⟩
  else
    let path : Path := ⟨.root, input.absolute files.workingDirectory⟩
    match files.find path with
    | .error f => ⟨.error (.file f), "", "", [], files⟩
    | .ok entry => scanEntry parser files verbose command.settings path.text entry

/-- The program. Without a command it prints its help. -/
def run (parser : Parser) (files : FileTree) (words : List String) : Outcome :=
  match CommandLine.parse words with
  | .error (.help text) => ⟨.ok 0, text, "", [], files⟩
  | .error (.refusal text) => ⟨.ok 2, "", text, [], files⟩
  | .ok ⟨_, none⟩ => ⟨.ok 1, mainHelp, "", [], files⟩
  | .ok ⟨verbose, some command⟩ => scan parser files verbose command

end Command

end LexicalScope
