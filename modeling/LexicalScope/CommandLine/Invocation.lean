import LexicalScope.CommandLine.Grammar

/-!
The program has one command, `scan`, which takes a file and says where its report goes. What was
set aside by either grammar is refused once everything else has been read.
-/

namespace LexicalScope.CommandLine

/-! ## Texts -/

def mainUsage : String := "usage: estree-scope [-h] [-v] \x7bscan\x7d ...\n"

def scanUsage : String :=
  "usage: estree-scope scan [-h] [--out OUT] [--json] [--strict] [--module] input\n"

def mainHelp : String :=
  mainUsage ++
  "\n" ++
  "Report the names declared in each JavaScript scope\n" ++
  "\n" ++
  "positional arguments:\n" ++
  "  \x7bscan\x7d\n" ++
  "    scan         Report the scopes of a single JS file\n" ++
  "\n" ++
  "options:\n" ++
  "  -h, --help     show this help message and exit\n" ++
  "  -v, --verbose  Log scope pushes and pops to stderr.\n"

def scanHelp : String :=
  scanUsage ++
  "\n" ++
  "positional arguments:\n" ++
  "  input       Path to the JavaScript file\n" ++
  "\n" ++
  "options:\n" ++
  "  -h, --help  show this help message and exit\n" ++
  "  --out OUT   Write the report to this file instead of stdout\n" ++
  "  --json      Emit the report as JSON.\n" ++
  "  --strict    Disable tolerant parsing and fail on any parse error.\n" ++
  "  --module    Parse the input as an ES module (enables import/export syntax).\n"

/-! ## Settings -/

/-- The settings of `scan`, its operand apart. -/
structure ScanSettings where
  out : Option String := none
  json : Bool := false
  strict : Bool := false
  asModule : Bool := false
deriving DecidableEq

/-- The command `scan` with its input. -/
structure Scan where
  input : String
  settings : ScanSettings
deriving DecidableEq

structure MainSettings where
  verbose : Bool := false
deriving DecidableEq

/-- What the program is asked to do. -/
structure Invocation where
  verbose : Bool
  scan : Option Scan
deriving DecidableEq

/-- What is printed instead of running a command. -/
inductive Screen where
  /-- Help, on standard output. -/
  | help (text : String)
  /-- A refusal, on standard error, after the usage line. -/
  | refusal (text : String)
deriving DecidableEq

def mainGrammar : Grammar MainSettings where
  switches :=
    [⟨["-h", "--help"], .help⟩,
     ⟨["-v", "--verbose"], .set fun s => { s with verbose := true }⟩]
  operand := .command

def scanGrammar : Grammar ScanSettings where
  switches :=
    [⟨["-h", "--help"], .help⟩,
     ⟨["--out"], .store fun value s => { s with out := value }⟩,
     ⟨["--json"], .set fun s => { s with json := true }⟩,
     ⟨["--strict"], .set fun s => { s with strict := true }⟩,
     ⟨["--module"], .set fun s => { s with asModule := true }⟩]
  operand := .single

/-! ## Reading -/

def refuseMain (e : UsageError) : Screen :=
  .refusal (mainUsage ++ "estree-scope: error: " ++ e.message ++ "\n")

def refuseScan (e : UsageError) : Screen :=
  .refusal (scanUsage ++ "estree-scope scan: error: " ++ e.message ++ "\n")

/-- The words of `scan`, and those it sets aside. -/
def readScan (words : List String) : Except Screen (Scan × List String) :=
  match scanGrammar.read {} words with
  | .error .help => .error (.help scanHelp)
  | .error (.refused e) => .error (refuseScan e)
  | .ok taken =>
    match taken.reading.operand with
    | none => .error (refuseScan (.missingOperand "input"))
    | some input => .ok (⟨input, taken.reading.settings⟩, taken.reading.extra)

/-- The invocation, unless words were set aside. -/
def acceptUnless (extra : List String) (invocation : Invocation) : Except Screen Invocation :=
  if extra.isEmpty then .ok invocation else .error (refuseMain (.unrecognized extra))

def parse (words : List String) : Except Screen Invocation :=
  match mainGrammar.read {} words with
  | .error .help => .error (.help mainHelp)
  | .error (.refused e) => .error (refuseMain e)
  | .ok ⟨reading, none⟩ => acceptUnless reading.extra ⟨reading.settings.verbose, none⟩
  | .ok ⟨reading, some (name, rest)⟩ =>
    if name = "scan" then do
      let (scan, extra) ← readScan rest
      acceptUnless (reading.extra ++ extra) ⟨reading.settings.verbose, some scan⟩
    else .error (refuseMain (.unknownCommand name ["scan"]))

end LexicalScope.CommandLine
