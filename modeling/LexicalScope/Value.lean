import LexicalScope.Binary64

/-!
The trees a parser delivers: the values of JSON, with the entries of an object in the order they
were written, and one value more, the compiled regular expression that a regular expression literal
leaves behind. A whole number and a floating-point number are different values.
-/

namespace LexicalScope

/-- A value of a tree. Its texts consist of whole characters, so that UTF-8 can encode all of them; half
    of a surrogate pair is no character. -/
inductive Value where
  | null
  | bool (b : Bool)
  | int (n : Int)
  | float (x : Binary64)
  | str (s : String)
  /-- What a parser leaves for a regular expression; it has no JSON form. -/
  | regex
  | arr (items : List Value)
  | obj (entries : List (String × Value))
deriving Inhabited

namespace Value

/-- The value of a field, `null` when there is none, as for every value that is no object. -/
def field (v : Value) (key : String) : Value :=
  match v with
  | .obj entries => (entries.lookup key).getD .null
  | _ => .null

/-- An object that has a field of this name, whatever its value. -/
def hasField (v : Value) (key : String) : Bool :=
  match v with
  | .obj entries => (entries.lookup key).isSome
  | _ => false

/-- Values that stand for nothing: `null`, `false`, zero, and the empty text, list and object. -/
def isAbsent : Value → Bool
  | .null => true
  | .bool b => !b
  | .int n => n = 0
  | .float x => x.isZero
  | .str s => s.isEmpty
  | .regex => false
  | .arr items => items.isEmpty
  | .obj entries => entries.isEmpty

/-- The values that have fields. -/
def isObject : Value → Bool
  | .obj _ => true
  | _ => false

def text? : Value → Option String
  | .str s => some s
  | _ => none

/-! ## Trees without regular expressions -/

mutual

/-- No regular expression occurs, at any depth: the value has a JSON form. -/
def isData : Value → Bool
  | .regex => false
  | .arr items => itemsAreData items
  | .obj entries => entriesAreData entries
  | _ => true

def itemsAreData : List Value → Bool
  | [] => true
  | v :: rest => v.isData && itemsAreData rest

def entriesAreData : List (String × Value) → Bool
  | [] => true
  | (_, v) :: rest => v.isData && entriesAreData rest

end

end Value

end LexicalScope
