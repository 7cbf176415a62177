import LexicalScope.Fault

/-!
The types of node that bind names or open scopes, read off the `type` field. Every other type, and
every value that is no object, is `other`. A type that is a list or an object belongs to no set of
types, and asking whether it does is a fault.
-/

namespace LexicalScope

/-- The types of node that matter to scoping. -/
inductive NodeType where
  | program
  | functionDeclaration
  | functionExpression
  | arrowFunction
  | blockStatement
  | catchClause
  | staticBlock
  | variableDeclaration
  | classDeclaration
  | classExpression
  | importDeclaration
  | identifier
  | arrayPattern
  | objectPattern
  | assignmentPattern
  | restElement
  | other
deriving DecidableEq, Inhabited

namespace NodeType

def ofName (name : String) : NodeType :=
  match name with
  | "Program" => .program
  | "FunctionDeclaration" => .functionDeclaration
  | "FunctionExpression" => .functionExpression
  | "ArrowFunctionExpression" => .arrowFunction
  | "BlockStatement" => .blockStatement
  | "CatchClause" => .catchClause
  | "StaticBlock" => .staticBlock
  | "VariableDeclaration" => .variableDeclaration
  | "ClassDeclaration" => .classDeclaration
  | "ClassExpression" => .classExpression
  | "ImportDeclaration" => .importDeclaration
  | "Identifier" => .identifier
  | "ArrayPattern" => .arrayPattern
  | "ObjectPattern" => .objectPattern
  | "AssignmentPattern" => .assignmentPattern
  | "RestElement" => .restElement
  | _ => .other

end NodeType

/-- The two flavours of scope: `var` stops at a function, and goes through a block. -/
inductive ScopeKind where
  | function
  | block
deriving DecidableEq, Inhabited

namespace ScopeKind

def label : ScopeKind → String
  | .function => "function"
  | .block => "block"

end ScopeKind

/-- The scope that a type of node opens. A whole program counts as a function. -/
def NodeType.scopeKind? : NodeType → Option ScopeKind
  | .program | .functionDeclaration | .functionExpression | .arrowFunction => some .function
  | .blockStatement | .catchClause | .staticBlock => some .block
  | _ => none

namespace Value

/-- The type of a node. A type that is no text is `other`, too. -/
def nodeType (v : Value) : NodeType :=
  match v.field "type" with
  | .str name => .ofName name
  | _ => .other

/-- The type is a list or an object. -/
def hasCompositeType (v : Value) : Bool :=
  match v.field "type" with
  | .arr _ | .obj _ => true
  | _ => false

/-- The type of a node, in an operation that looks the type up. -/
def lookupType (v : Value) : Except Fault NodeType :=
  if v.hasCompositeType then .error .compositeType else .ok v.nodeType

def scopeKind? (v : Value) : Except Fault (Option ScopeKind) := do
  let type ← v.lookupType
  return type.scopeKind?

/-- What a field lists: nothing when absent, the items of a list, the characters of a text and the
    names of an object's fields. -/
def listed (v : Value) : Except Fault (List Value) :=
  if v.isAbsent then .ok []
  else
    match v with
    | .arr items => .ok items
    | .str s => .ok (s.toList.map fun c => .str c.toString)
    | .obj entries => .ok (entries.map fun (key, _) => .str key)
    | _ => .error .notEnumerable

end Value

end LexicalScope
