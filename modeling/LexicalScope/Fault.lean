import LexicalScope.Display

/-!
The causes for which an operation on a tree stops. Two concern the tree's shape, one a value that
was asked for a field without having any, and two a pair of hooks called out of turn; the last two
carry the node, and the place where it begins when its location tells.
-/

namespace LexicalScope

/-- Where a node begins: the line and column of its location, both present. -/
structure Position where
  line : Value
  column : Value
deriving Inhabited

/-- Why an operation on a tree stops. -/
inductive Fault where
  /-- The type of a node is a list or an object. -/
  | compositeType
  /-- A field that lists things holds `true`, a number other than zero, or a regular expression. -/
  | notEnumerable
  /-- A field is asked of a value that is not an object. -/
  | notAnObject
  /-- A node declares names while no scope is open. -/
  | undeclarable (node : Value) (position : Option Position)
  /-- A scope is left that was not entered. -/
  | unbalanced (node : Value) (position : Option Position)
deriving Inhabited

namespace Position

/-- The place a node begins, when its location gives a line and a column. A location or a start
    that is present must be an object. -/
def ofNode? (node : Value) : Except Fault (Option Position) :=
  let location := node.field "loc"
  if !location.isAbsent && !location.isObject then .error .notAnObject
  else
    let start := location.field "start"
    if !start.isAbsent && !start.isObject then .error .notAnObject
    else
      match start.field "line", start.field "column" with
      | .null, _ => .ok none
      | _, .null => .ok none
      | line, column => .ok (some ⟨line, column⟩)

/-- The place as it ends a message. -/
def suffix (p : Position) : String :=
  " (line " ++ p.line.display ++ ", column " ++ p.column.display ++ ")"

/-- The ending of a message about a node that may have no place. -/
def suffixOf : Option Position → String
  | none => ""
  | some p => p.suffix

end Position

/-- A message about a node, ended by the place where the node begins. -/
def locate (message : String) (node : Value) : Except Fault String := do
  let position ← Position.ofNode? node
  return message ++ Position.suffixOf position

namespace Fault

/-- The fault made of a node and its place, unless the place itself cannot be read. -/
def locating (fault : Value → Option Position → Fault) (node : Value) : Fault :=
  match Position.ofNode? node with
  | .ok position => fault node position
  | .error f => f

/-- The message of a hook called out of turn; faults of shape have none. -/
def message? : Fault → Option String
  | .undeclarable node position =>
    some ((node.field "type").display ++ " declares names before the Program was entered" ++
      Position.suffixOf position)
  | .unbalanced node position =>
    some ("Unbalanced exit for " ++ (node.field "type").display ++ ": no scope left to pop" ++
      Position.suffixOf position)
  | _ => none

/-- The node at which hooks were called out of turn. -/
def node? : Fault → Option Value
  | .undeclarable node _ => some node
  | .unbalanced node _ => some node
  | _ => none

end Fault

end LexicalScope
