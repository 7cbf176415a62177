import LexicalScope.Value
import LexicalScope.Decimal.Numeral
import LexicalScope.Text

/-!
How a value stands in a message: a text as it is, and everything else in the notation of literals,
in which the texts inside lists and objects are quoted.
-/

namespace LexicalScope

/-- Floating-point numbers in messages. -/
def Display.numerals : NumeralStyle where
  positionalFrom := -4
  positionalBelow := 16
  exponentWidth := 2
  infinity := "inf"
  notANumber := "nan"

namespace Value

mutual

/-- A value in the notation of literals. What a regular expression was compiled from is not kept, so its
    word is only a stand-in. -/
def literal : Value → String
  | .null => "None"
  | .bool true => "True"
  | .bool false => "False"
  | .int n => toString n
  | .float x => String.ofList (Display.numerals.numeral x)
  | .str s => Text.quoted s
  | .regex => "<regex>"
  | .arr items => "[" ++ String.intercalate ", " (literals items) ++ "]"
  | .obj entries => "\x7b" ++ String.intercalate ", " (entryLiterals entries) ++ "\x7d"

def literals : List Value → List String
  | [] => []
  | v :: rest => v.literal :: literals rest

def entryLiterals : List (String × Value) → List String
  | [] => []
  | (key, v) :: rest => (Text.quoted key ++ ": " ++ v.literal) :: entryLiterals rest

end

/-- A value as it stands in a message. -/
def display : Value → String
  | .str s => s
  | v => v.literal

end Value

end LexicalScope
