import LexicalScope.Value
import LexicalScope.Decimal.Numeral
import LexicalScope.Text

/-!
A value as JSON text, one item or entry a line, two blanks a level. In a text only the quote, the
backslash and the characters below the blank are escaped. A value in which a regular expression
occurs has no JSON text.
-/

namespace LexicalScope.Json

/-- Floating-point numbers in JSON texts. -/
def numerals : NumeralStyle where
  positionalFrom := -4
  positionalBelow := 16
  exponentWidth := 2
  infinity := "Infinity"
  notANumber := "NaN"

/-- A character as it stands in a JSON text. -/
def escape (c : Char) : List Char :=
  if c = '"' then ['\\', '"']
  else if c = '\\' then ['\\', '\\']
  else if c = '\n' then ['\\', 'n']
  else if c = '\r' then ['\\', 'r']
  else if c = '\t' then ['\\', 't']
  else if c.toNat = 8 then ['\\', 'b']
  else if c.toNat = 12 then ['\\', 'f']
  else if c.toNat < 32 then '\\' :: 'u' :: Text.hex 4 c.toNat
  else [c]

def quote (s : String) : List Char := '"' :: (s.toList.flatMap escape ++ ['"'])

/-- The digits of a whole number, after its sign. -/
def integer (n : Int) : List Char :=
  if n < 0 then '-' :: Nat.toDigits 10 n.natAbs else Nat.toDigits 10 n.natAbs

/-- A new line, indented by two blanks a level. -/
def newline (depth : Nat) : List Char := '\n' :: List.replicate (2 * depth) ' '

mutual

/-- The JSON text of a value that stands `depth` levels deep. -/
def write (depth : Nat) : Value → List Char
  | .null => ['n', 'u', 'l', 'l']
  | .bool true => ['t', 'r', 'u', 'e']
  | .bool false => ['f', 'a', 'l', 's', 'e']
  | .int n => integer n
  | .float x => numerals.numeral x
  | .str s => quote s
  | .regex => []
  | .arr items =>
    if items.isEmpty then ['[', ']']
    else '[' :: (writeItems (depth + 1) items ++ (newline depth ++ [']']))
  | .obj entries =>
    if entries.isEmpty then ['\x7b', '\x7d']
    else '\x7b' :: (writeEntries (depth + 1) entries ++ (newline depth ++ ['\x7d']))

/-- The items of a list, each on a line of its own. -/
def writeItems (depth : Nat) : List Value → List Char
  | [] => []
  | v :: rest =>
    newline depth ++ (write depth v ++
      ((if rest.isEmpty then [] else [',']) ++ writeItems depth rest))

/-- The entries of an object, each on a line of its own. -/
def writeEntries (depth : Nat) : List (String × Value) → List Char
  | [] => []
  | (key, v) :: rest =>
    newline depth ++ (quote key ++ (':' :: ' ' :: (write depth v ++
      ((if rest.isEmpty then [] else [',']) ++ writeEntries depth rest))))

end

/-- The JSON text of a value that has one. -/
def text? (v : Value) : Option String :=
  if v.isData then some (String.ofList (write 0 v)) else none

end LexicalScope.Json
