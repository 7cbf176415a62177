import LexicalScope.Declaration

/-!
What is recorded while a tree is gone through: every scope opened and closed, every name that is
new to its scope, and the outcome for the whole source. The texts name the part of the program that
speaks.
-/

namespace LexicalScope

/-- One entry of the log. -/
inductive Record where
  /-- A node opened a scope; `depth` counts the open scopes, this one included. -/
  | push (kind : ScopeKind) (type : String) (depth : Nat)
  /-- A name was added to a scope. -/
  | define (name : String) (target : Target)
  /-- A node closed its scope, which had these names. -/
  | pop (type : String) (names : List String)
  /-- A source was gone through, and so many scopes are still open. -/
  | walked (source : String) (scopes : Nat)
  /-- The tree of a source was stored in a file. -/
  | cached (source : String) (file : String)
deriving DecidableEq, Inhabited

namespace Record

def line : Record → String
  | .push kind type depth =>
    "analyzer.scope_tracker: push " ++ kind.label ++ " scope for " ++ type ++ " (depth " ++
      toString depth ++ ")"
  | .define name target =>
    "analyzer.scope_tracker: define " ++ Text.quoted name ++ " in " ++ target.label ++ " scope"
  | .pop type names =>
    "analyzer.scope_tracker: pop scope for " ++ type ++ ": " ++ Text.quotedList names
  | .walked source scopes =>
    "frontend.pipeline: " ++ source ++ ": " ++ toString scopes ++ " scope(s) after walk"
  | .cached source file =>
    "frontend.pipeline: cached parse of " ++ source ++ " at " ++ file

end Record

end LexicalScope
