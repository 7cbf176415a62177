import LexicalScope.FileTree
import LexicalScope.Fault

/-!
Everything that can keep the program from its result, with the texts for what a user can mend.
-/

namespace LexicalScope

/-- Why there is no result. -/
inductive Failure where
  /-- The kind of source is neither a script nor a module. -/
  | sourceType (given : String)
  /-- The form of the report is neither text nor JSON. -/
  | format (given : String)
  /-- The parser gave up, with a message. -/
  | parser (message : String)
  /-- The tree is not what an operation takes. -/
  | tree (fault : Fault)
  /-- A regular expression is to be written as JSON. -/
  | notData
  /-- The bytes of a file are not UTF-8. -/
  | notText
  /-- A file cannot be looked at or written. -/
  | file (fault : FileFault)
deriving Inhabited

namespace Failure

def message? : Failure → Option String
  | .sourceType given =>
    some ("source_type must be one of ('script', 'module'), got " ++ Text.quoted given)
  | .format given => some ("format must be one of ('text', 'json'), got " ++ Text.quoted given)
  | .parser message => some message
  | .tree fault => fault.message?
  | .file .nullInPath => some "embedded null byte"
  | .notData | .notText | .file _ => none

end Failure

end LexicalScope
