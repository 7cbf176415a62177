import LexicalScope.OpenScopes
import LexicalScope.Walk

/-!
Going through a tree with the open scopes at hand: each event enters or leaves its node, up to the
first fault. The scopes as they are when closed are read off just before a node is left.
-/

namespace LexicalScope

/-- A scope about to be closed, as it is then. -/
structure Closing where
  /-- The type of the node that opened it. -/
  type : Value
  /-- How many scopes are open. -/
  depth : Nat
  scope : Scope
deriving Inhabited

namespace OpenScopes

def step (scopes : OpenScopes) (event : Event) : Step :=
  match event.phase with
  | .enter => scopes.enter event.node
  | .leave => scopes.leave event.node

/-- The calls for a list of events, up to the first fault. -/
def run (scopes : OpenScopes) : List Event → Step
  | [] => .keep scopes
  | event :: rest => (scopes.step event).andThen (run · rest)

/-- The events reached, each with the scopes open before it. -/
def history (scopes : OpenScopes) : List Event → List (OpenScopes × Event)
  | [] => []
  | event :: rest =>
    let s := scopes.step event
    (scopes, event) :: (if s.fault.isSome then [] else history s.scopes rest)

/-- The scope about to be closed by an event: leaving a node that opened one, the program
    included. -/
def closing? (scopes : OpenScopes) (event : Event) : Option Closing :=
  match event.phase, event.node.scopeKind?, scopes with
  | .leave, .ok (some _), scope :: _ =>
    some ⟨event.node.field "type", scopes.length, scope⟩
  | _, _, _ => none

/-- Goes through a tree with the scopes given. -/
def walk (scopes : OpenScopes) (tree : Value) : Step := scopes.run (Walk.trace tree)

/-- The scopes closed while going through a tree, in order. -/
def closings (scopes : OpenScopes) (tree : Value) : List Closing :=
  (scopes.history (Walk.trace tree)).filterMap fun (scopes, event) => scopes.closing? event

end OpenScopes

end LexicalScope
