import LexicalScope.Digest.Sha256
import LexicalScope.Failure
import LexicalScope.Json.Writer
import LexicalScope.Node

/-!
The parser is given from outside: it takes a source to a tree, or gives up with an error. Asked to
be tolerant, it may deliver a tree together with the errors it went past, and giving up counts as
one more error, with no tree. What is kept of a source is its tree, its errors, its name and the
digest of its text.
-/

namespace LexicalScope

/-! ## The parser -/

inductive SourceType where
  | script
  | esModule
deriving DecidableEq, Inhabited

namespace SourceType

def ofName? (name : String) : Option SourceType :=
  match name with
  | "script" => some .script
  | "module" => some .esModule
  | _ => none

end SourceType

/-- What a parser is asked for. -/
structure ParserCall where
  sourceType : SourceType
  /-- Go on after an error where possible. -/
  tolerant : Bool
deriving DecidableEq, Inhabited

/-- The error with which a parser gives up. -/
structure ParserError where
  message : String
  description : Option String
  line : Option Int
  column : Option Int
deriving DecidableEq, Inhabited

inductive ParserOutcome where
  | tree (ast : Value)
  | failed (error : ParserError)
deriving Inhabited

abbrev Parser := ParserCall → String → ParserOutcome

/-! ## Its results -/

/-- An error of a source, with whatever the parser says of it. -/
structure ParseError where
  description : Value
  line : Value
  column : Value
deriving Inhabited

namespace ParseError

/-- A number that may be missing. -/
def number : Option Int → Value
  | none => .null
  | some n => .int n

/-- The error of a parser that gave up. Without a description it is described by its message. -/
def ofFailure (e : ParserError) : ParseError where
  description := .str (match e.description with
    | some text => if text.isEmpty then e.message else text
    | none => e.message)
  line := number e.line
  column := number e.column

/-- An error listed in a tree. -/
def ofItem (item : Value) : Except Fault ParseError :=
  if item.isObject then
    .ok ⟨item.field "description", item.field "lineNumber", item.field "column"⟩
  else .error .notAnObject

/-- The errors listed in a tree that is an object. -/
def ofTree (ast : Value) : Except Fault (List ParseError) := do
  let items ← (ast.field "errors").listed
  items.mapM ofItem

def toValue (e : ParseError) : Value :=
  .obj [("description", e.description), ("line", e.line), ("column", e.column)]

end ParseError

/-- A source after parsing. The tree is `null` when there is none. -/
structure Parsed where
  ast : Value
  errors : List ParseError
  sourceHash : String
  sourceName : String
deriving Inhabited

namespace Parsed

def hasTree (p : Parsed) : Bool :=
  match p.ast with
  | .null => false
  | _ => true

/-- A source and what the parser made of it. A parser that was not asked to be tolerant fails for
    good, and lists no errors. -/
def ofOutcome (outcome : ParserOutcome) (tolerant : Bool) (source sourceName : String) :
    Except Failure Parsed :=
  match outcome with
  | .failed e =>
    if tolerant then .ok ⟨.null, [.ofFailure e], Sha256.hexDigest source, sourceName⟩
    else .error (.parser e.message)
  | .tree ast =>
    match if tolerant then ParseError.ofTree ast else .ok [] with
    | .error f => .error (.tree f)
    | .ok errors => .ok ⟨ast, errors, Sha256.hexDigest source, sourceName⟩

def toValue (p : Parsed) : Value :=
  .obj [("ast", p.ast), ("errors", .arr (p.errors.map ParseError.toValue)),
    ("source_hash", .str p.sourceHash), ("source_name", .str p.sourceName)]

def toJson (p : Parsed) : Except Failure String :=
  match Json.text? p.toValue with
  | some text => .ok text
  | none => .error .notData

end Parsed

end LexicalScope
