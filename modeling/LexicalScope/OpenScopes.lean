import LexicalScope.Record
import LexicalScope.Scope

/-!
The scopes around a point of a tree, innermost first. Entering a node declares its names in one of
them, opens its scope, and declares its parameters there; leaving it closes the scope. The scope of
the program stays open. A call that stops midway keeps what it has done, so a step is made of the
scopes it leaves, what it logged, and the fault that stopped it.
-/

namespace LexicalScope

/-- The open scopes, innermost first. -/
abbrev OpenScopes := List Scope

/-- What a call leaves behind. -/
structure Step where
  scopes : OpenScopes
  log : List Record
  fault : Option Fault
deriving Inhabited

namespace Step

def keep (scopes : OpenScopes) : Step := ⟨scopes, [], none⟩

def fail (scopes : OpenScopes) (fault : Fault) : Step := ⟨scopes, [], some fault⟩

/-- One step after another; the second is not taken after a fault. -/
def andThen (first : Step) (second : OpenScopes → Step) : Step :=
  match first.fault with
  | some _ => first
  | none =>
    let next := second first.scopes
    ⟨next.scopes, first.log ++ next.log, next.fault⟩

end Step

/-- How far out the receiving scope is. Where no function is open, the outermost scope stands in. -/
def Target.distance (target : Target) (scopes : OpenScopes) : Nat :=
  match target with
  | .current | .own => 0
  | .function => min (scopes.findIdx fun s => !s.block) (scopes.length - 1)
  | .outermost => scopes.length - 1

namespace OpenScopes

/-- Declares names in the scope they are meant for. Without names nothing is asked of the scopes;
    with names one scope at least must be open. -/
def declare (scopes : OpenScopes) (node : Value) (d : Declaration) : Step :=
  if d.names.isEmpty then .keep scopes
  else
    let i := d.target.distance scopes
    match scopes[i]? with
    | none => .fail scopes (Fault.locating .undeclarable node)
    | some scope =>
      ⟨scopes.modify i (·.defineAll d.names), (scope.fresh d.names).map (.define · d.target), none⟩

/-- Declares the names that a node has for the scopes around it. -/
def declareOutside (scopes : OpenScopes) (node : Value) : Step :=
  match node.declaration? with
  | .error f => .fail scopes f
  | .ok none => .keep scopes
  | .ok (some d) => scopes.declare node d

/-- Declares the names that a node has for the scope it opened. -/
def declareOwn (scopes : OpenScopes) (node : Value) : Step :=
  match node.ownNames with
  | .error f => .fail scopes f
  | .ok names => scopes.declare node ⟨names, .own⟩

def push (scopes : OpenScopes) (node : Value) (kind : ScopeKind) : Step :=
  ⟨.empty (kind = .block) :: scopes,
    [.push kind (node.field "type").display (scopes.length + 1)], none⟩

/-- Opens the scope of a node that has one, with its parameters. -/
def openScope (scopes : OpenScopes) (node : Value) : Step :=
  match node.scopeKind? with
  | .error f => .fail scopes f
  | .ok none => .keep scopes
  | .ok (some kind) => (scopes.push node kind).andThen (declareOwn · node)

/-- Enters a node. The names that it has for the scopes around it come first. -/
def enter (scopes : OpenScopes) (node : Value) : Step :=
  (scopes.declareOutside node).andThen (openScope · node)

/-- Closes the innermost scope, which must not be the last one. -/
def pop (scopes : OpenScopes) (node : Value) : Step :=
  match scopes with
  | scope :: next :: rest =>
    ⟨next :: rest, [.pop (node.field "type").display scope.names], none⟩
  | _ => .fail scopes (Fault.locating .unbalanced node)

/-- Leaves a node. The scope of a program stays open. -/
def leave (scopes : OpenScopes) (node : Value) : Step :=
  match node.scopeKind? with
  | .error f => .fail scopes f
  | .ok none => .keep scopes
  | .ok (some _) => if node.nodeType = .program then .keep scopes else scopes.pop node

end OpenScopes

end LexicalScope
