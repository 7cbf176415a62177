import LexicalScope.Pattern

/-!
A node may declare names in a scope around it, and bind names in the scope it opens: its parameters.
`var`, function declarations and imports are hoisted; `let`, `const` and classes are not, and the
name of a function expression is declared where the expression stands.
-/

namespace LexicalScope

/-- The open scope that receives a name. -/
inductive Target where
  /-- The innermost scope. -/
  | current
  /-- The innermost scope that is a function. -/
  | function
  /-- The outermost scope. -/
  | outermost
  /-- The scope that the node itself has just opened. -/
  | own
deriving DecidableEq, Inhabited

namespace Target

def label : Target → String
  | .current => "current"
  | .function => "function"
  | .outermost => "module"
  | .own => "own"

end Target

/-- Names and the scope that receives them. -/
structure Declaration where
  names : List String
  target : Target
deriving DecidableEq, Inhabited

namespace Value

/-- The names bound by the field `part` of everything that the field `list` lists. -/
def namesThrough (node : Value) (list part : String) : Except Fault (List String) := do
  let items ← (node.field list).listed
  let names ← items.mapM fun item => Pattern.names (item.field part)
  return names.flatten

/-- The names of the `id` field, declared in the target. -/
def declaresId (node : Value) (target : Target) : Except Fault (Option Declaration) := do
  let names ← Pattern.names (node.field "id")
  return some ⟨names, target⟩

/-- The scope a variable declaration is for: only `var` is hoisted. -/
def variableTarget (node : Value) : Target :=
  match node.field "kind" with
  | .str "var" => .function
  | _ => .current

/-- What a node declares outside the scope that it opens. -/
def declaration? (node : Value) : Except Fault (Option Declaration) := do
  match ← node.lookupType with
  | .variableDeclaration =>
    let names ← node.namesThrough "declarations" "id"
    return some ⟨names, node.variableTarget⟩
  | .functionDeclaration => node.declaresId .function
  | .functionExpression | .classDeclaration | .classExpression => node.declaresId .current
  | .importDeclaration =>
    let names ← node.namesThrough "specifiers" "local"
    return some ⟨names, .outermost⟩
  | _ => return none

/-- The names bound in the scope that a node opens. -/
def ownNames (node : Value) : Except Fault (List String) := do
  match ← node.lookupType with
  | .functionDeclaration | .functionExpression | .arrowFunction =>
    let items ← (node.field "params").listed
    let names ← items.mapM Pattern.names
    return names.flatten
  | .catchClause => Pattern.names (node.field "param")
  | _ => return []

end Value

end LexicalScope
