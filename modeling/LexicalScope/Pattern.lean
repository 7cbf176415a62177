import LexicalScope.Node

/-!
The names that a pattern binds, from left to right, repetitions kept. A default value and a
property key bind nothing, and neither does a shape that is no pattern. The only fault is a list of
elements or properties that cannot be gone through.
-/

namespace LexicalScope.Pattern

/-- How a field of a pattern is read. -/
inductive Part where
  /-- The field holds a pattern. -/
  | pattern
  /-- The field lists patterns. -/
  | elements
  /-- The field lists properties. -/
  | properties
deriving DecidableEq

/-- The name of an identifier; one whose name is no text has none. -/
def identifierName (node : Value) : List String :=
  match node.field "name" with
  | .str name => [name]
  | _ => []

/-- A list field that is not a list: it must still be possible to go through it, and what it lists
    are texts, which bind nothing. -/
def noNames (v : Value) : Except Fault (List String) := do
  let _ ← v.listed
  return []

mutual

/-- The names a pattern binds. -/
def names : Value → Except Fault (List String)
  | .obj entries =>
    match (Value.obj entries).nodeType with
    | .identifier => .ok (identifierName (.obj entries))
    | .arrayPattern => fieldNames .elements "elements" entries
    | .objectPattern => fieldNames .properties "properties" entries
    | .assignmentPattern => fieldNames .pattern "left" entries
    | .restElement => fieldNames .pattern "argument" entries
    | _ => .ok []
  | _ => .ok []

/-- The names bound by the first field called `key`, none when there is no such field. -/
def fieldNames (part : Part) (key : String) : List (String × Value) → Except Fault (List String)
  | [] => .ok []
  | (k, v) :: rest =>
    if k = key then
      match part with
      | .pattern => names v
      | .elements => elementNames v
      | .properties => propertyNames v
    else fieldNames part key rest

/-- The names bound by the elements of an array pattern. -/
def elementNames : Value → Except Fault (List String)
  | .arr items => itemNames items
  | v => noNames v

def itemNames : List Value → Except Fault (List String)
  | [] => .ok []
  | v :: rest => do
    let here ← names v
    let later ← itemNames rest
    return here ++ later

/-- The names bound by the properties of an object pattern. -/
def propertyNames : Value → Except Fault (List String)
  | .arr items => propertyItemNames items
  | v => noNames v

def propertyItemNames : List Value → Except Fault (List String)
  | [] => .ok []
  | v :: rest => do
    let here ← propertyName v
    let later ← propertyItemNames rest
    return here ++ later

/-- The names bound by one property: a rest element binds its argument, any other its value. -/
def propertyName : Value → Except Fault (List String)
  | .obj entries =>
    match (Value.obj entries).nodeType with
    | .restElement => fieldNames .pattern "argument" entries
    | _ => fieldNames .pattern "value" entries
  | _ => .ok []

end

end LexicalScope.Pattern
