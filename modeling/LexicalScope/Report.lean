import LexicalScope.Analysis
import LexicalScope.Text

/-!
The scopes of an analysis, as a line of text for each scope or as a JSON text.
-/

namespace LexicalScope

structure ReportOptions where
  format : String := "text"
  trailingNewline : Bool := true

inductive ReportFormat where
  | text
  | json
deriving DecidableEq, Inhabited

namespace ReportFormat

def ofName? (name : String) : Option ReportFormat :=
  match name with
  | "text" => some .text
  | "json" => some .json
  | _ => none

end ReportFormat

namespace Report

/-- A report on a tree that was not gone through is one on no scope. -/
def scopes (a : Analysis) : List Scope := a.scopes.getD []

/-- The line of a scope: its flavour and its names. -/
def line (s : Scope) : String :=
  let label := if s.block then "block" else "function"
  Text.trimEnd (label ++ ": " ++ String.intercalate ", " s.names)

/-- The lines of all scopes. -/
def text (a : Analysis) : String := String.intercalate "\n" ((scopes a).map line)

def scopeValue (s : Scope) : Value :=
  .obj [("block", .bool s.block), ("defined", .arr (s.names.map .str))]

def toValue (a : Analysis) : Value :=
  .obj [("source_name", .str a.parsed.sourceName), ("scopes", .arr ((scopes a).map scopeValue)),
    ("errors", .arr (a.parsed.errors.map ParseError.toValue))]

/-- The report of an analysis. -/
def render (a : Analysis) (options : ReportOptions) : Except Failure String :=
  let ending := if options.trailingNewline then "\n" else ""
  match ReportFormat.ofName? options.format with
  | none => .error (.format options.format)
  | some .text => .ok (text a ++ ending)
  | some .json =>
    match Json.text? (toValue a) with
    | some json => .ok (json ++ ending)
    | none => .error .notData

end Report

end LexicalScope
