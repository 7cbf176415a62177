import LexicalScope.Parsed
import LexicalScope.Tracking

/-!
A source is parsed, its tree is gone through with no scope open at first, and on demand the parsed
source is stored in a directory, under the digest of its text. An attempt that fails keeps the calls
made to the parser, the log and the files as they are at that point.
-/

namespace LexicalScope

structure AnalysisOptions where
  sourceName : String := "<input>"
  tolerant : Bool := true
  /-- Go through the tree. -/
  track : Bool := true
  sourceType : String := "script"
  /-- The directory to store the parsed source in. -/
  cache : Option Path := none

/-- A parsed source and the scopes still open at the end, outermost first; none when the tree was
    not gone through. -/
structure Analysis where
  parsed : Parsed
  scopes : Option (List Scope)
deriving Inhabited

namespace Analysis

def hasTree (a : Analysis) : Bool := a.parsed.hasTree

/-- The scope of the program: the outermost one. -/
def programScope? (a : Analysis) : Option Scope := a.scopes.bind List.head?

end Analysis

/-- A result, or why there is none, and what happened on the way. -/
structure Attempt (α : Type) where
  result : Except Failure α
  calls : List ParserCall
  log : List Record
  files : FileTree

namespace Attempt

variable {α β : Type}

/-- A result at no cost. -/
def done (files : FileTree) (a : α) : Attempt α := ⟨.ok a, [], [], files⟩

/-- A failure at no cost. -/
def fail (files : FileTree) (f : Failure) : Attempt α := ⟨.error f, [], [], files⟩

/-- One attempt after another; the second is not made after a failure. -/
def andThen (first : Attempt α) (second : FileTree → α → Attempt β) : Attempt β :=
  match first.result with
  | .error f => ⟨.error f, first.calls, first.log, first.files⟩
  | .ok a =>
    let next := second first.files a
    ⟨next.result, first.calls ++ next.calls, first.log ++ next.log, next.files⟩

end Attempt

namespace Analysis

/-- Parses a source. The kind of source is looked at before the parser is called. -/
def parse (parser : Parser) (source : String) (options : AnalysisOptions) (files : FileTree) :
    Attempt Parsed :=
  match SourceType.ofName? options.sourceType with
  | none => .fail files (.sourceType options.sourceType)
  | some sourceType =>
    let call : ParserCall := ⟨sourceType, options.tolerant⟩
    ⟨Parsed.ofOutcome (parser call source) options.tolerant source options.sourceName,
      [call], [], files⟩

/-- Goes through the tree of a parsed source, if there is one and it is asked for. -/
def track (options : AnalysisOptions) (files : FileTree) (parsed : Parsed) : Attempt Analysis :=
  if options.track && parsed.hasTree then
    let step := OpenScopes.walk [] parsed.ast
    match step.fault with
    | some f => ⟨.error (.tree f), [], step.log, files⟩
    | none =>
      ⟨.ok ⟨parsed, some step.scopes.reverse⟩, [],
        step.log ++ [.walked options.sourceName step.scopes.length], files⟩
  else .done files ⟨parsed, none⟩

/-- Writes a parsed source into a directory that is there. -/
def writeCache (directory : Path) (files : FileTree) (parsed : Parsed) : Attempt Unit :=
  match parsed.toJson with
  | .error f => .fail files f
  | .ok text =>
    let file := directory.child (parsed.sourceHash ++ ".json")
    match files.write file text.toUTF8 with
    | .error f => .fail files (.file f)
    | .ok written => ⟨.ok (), [], [.cached parsed.sourceName file.text], written⟩

/-- Stores a parsed source, if there is a directory for it, which is made where missing. -/
def store (options : AnalysisOptions) (files : FileTree) (a : Analysis) : Attempt Analysis :=
  match options.cache with
  | none => .done files a
  | some directory =>
    match files.makeDirectories directory with
    | .error f => .fail files (.file f)
    | .ok made => (writeCache directory made a.parsed).andThen fun files _ => .done files a

/-- Parses a source, goes through its tree and stores what was parsed, in this order. -/
def run (parser : Parser) (source : String) (options : AnalysisOptions) (files : FileTree) :
    Attempt Analysis :=
  ((parse parser source options files).andThen (track options)).andThen (store options)

end Analysis

end LexicalScope
