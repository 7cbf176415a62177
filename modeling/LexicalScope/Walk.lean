import LexicalScope.Value

/-!
A node is an object with a `type` field. A tree is gone through depth first, each node entered
before and left after what its fields hold, in the order of the fields; lists are gone through item
by item. What an object without a type holds is passed over, and so are the fields that carry
positions, comments, errors and tokens.
-/

namespace LexicalScope

/-- Before or after what a node holds. -/
inductive Phase where
  | enter
  | leave
deriving DecidableEq, Inhabited

structure Event where
  phase : Phase
  node : Value
deriving Inhabited

/-- Which events are asked for. -/
structure Hooks where
  enter : Bool
  leave : Bool
deriving DecidableEq

namespace Walk

/-- The fields that are passed over. -/
def metadata : List String := ["loc", "range", "comments", "errors", "tokens"]

mutual

/-- The events of a tree, of the phases asked for. -/
def observe (hooks : Hooks) : Value → List Event
  | .arr items => observeItems hooks items
  | .obj entries =>
    if (Value.obj entries).hasField "type" then
      (if hooks.enter then [⟨.enter, .obj entries⟩] else []) ++
        (observeEntries hooks entries ++ if hooks.leave then [⟨.leave, .obj entries⟩] else [])
    else []
  | _ => []

def observeItems (hooks : Hooks) : List Value → List Event
  | [] => []
  | v :: rest => observe hooks v ++ observeItems hooks rest

def observeEntries (hooks : Hooks) : List (String × Value) → List Event
  | [] => []
  | (key, v) :: rest =>
    (if metadata.contains key then [] else observe hooks v) ++ observeEntries hooks rest

end

/-- Every event of a tree. -/
def trace (tree : Value) : List Event := observe ⟨true, true⟩ tree

end Walk

end LexicalScope
