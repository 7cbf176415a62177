import LexicalScope.Value

/-!
A JSON text as a value, with the entries of an object in the order of the text. A number with a
fraction or an exponent is a floating-point number, any other is whole and of any size. Each reader
takes a value from the start of the text and returns it with the rest.
-/

namespace LexicalScope.Json

/-- The characters between tokens. -/
def isSpace (c : Char) : Bool := c = ' ' || c = '\n' || c = '\t' || c = '\r'

/-- The text after the space it starts with. -/
def skipSpace (s : List Char) : List Char := s.dropWhile isSpace

/-! ## Numbers -/

def digitsValue (digits : List Char) : Nat :=
  digits.foldl (fun n c => 10 * n + (c.toNat - '0'.toNat)) 0

/-- The digits a text starts with, and the rest. -/
def takeDigits (s : List Char) : List Char × List Char := s.span Char.isDigit

/-- The digits after a point, none when no point and digit come first. -/
def takeFraction (s : List Char) : List Char × List Char :=
  match s with
  | '.' :: rest =>
    let (digits, after) := takeDigits rest
    if digits.isEmpty then ([], s) else (digits, after)
  | _ => ([], s)

/-- The exponent a text starts with. -/
def takeExponent (s : List Char) : Option Int × List Char :=
  match s with
  | c :: rest =>
    if c = 'e' || c = 'E' then
      let (negative, unsigned) := match rest with
        | '-' :: more => (true, more)
        | '+' :: more => (false, more)
        | _ => (false, rest)
      let (digits, after) := takeDigits unsigned
      if digits.isEmpty then (none, s)
      else
        let n : Int := digitsValue digits
        (some (if negative then -n else n), after)
    else (none, s)
  | [] => (none, s)

/-- The digits before the point: a zero alone, or no zero first. -/
def takeWhole (s : List Char) : Option (List Char × List Char) :=
  match s with
  | '0' :: rest => some (['0'], rest)
  | _ =>
    let (digits, after) := takeDigits s
    if digits.isEmpty then none else some (digits, after)

def readNumber (s : List Char) : Option (Value × List Char) := do
  let (negative, unsigned) := match s with
    | '-' :: rest => (true, rest)
    | _ => (false, s)
  let (whole, afterWhole) ← takeWhole unsigned
  let (fraction, afterFraction) := takeFraction afterWhole
  let (exponent, rest) := takeExponent afterFraction
  if fraction.isEmpty && exponent.isNone then
    let n : Int := digitsValue whole
    return (.int (if negative then -n else n), rest)
  else
    let shift := exponent.getD 0 - (fraction.length : Int)
    return (.float (.ofDecimal negative (digitsValue (whole ++ fraction)) shift), rest)

/-! ## Texts -/

def hexValue (c : Char) : Option Nat :=
  if '0' ≤ c && c ≤ '9' then some (c.toNat - '0'.toNat)
  else if 'a' ≤ c && c ≤ 'f' then some (c.toNat - 'a'.toNat + 10)
  else if 'A' ≤ c && c ≤ 'F' then some (c.toNat - 'A'.toNat + 10)
  else none

def hexQuad (a b c d : Char) : Option Nat := do
  let a ← hexValue a
  let b ← hexValue b
  let c ← hexValue c
  let d ← hexValue d
  return ((a * 16 + b) * 16 + c) * 16 + d

/-- The character that a one-letter escape stands for. -/
def unescape (c : Char) : Option Char :=
  match c with
  | '"' => some '"'
  | '\\' => some '\\'
  | '/' => some '/'
  | 'b' => some '\x08'
  | 'f' => some '\x0c'
  | 'n' => some '\n'
  | 'r' => some '\r'
  | 't' => some '\t'
  | _ => none

/-- Reads a text up to its closing quote; the opening one is already read. Every character and
    every four-digit escape gives a number, so that an escape may give half of a character. -/
def readUnits : List Char → Option (List Nat × List Char)
  | [] => none
  | '"' :: rest => some ([], rest)
  | '\\' :: 'u' :: a :: b :: c :: d :: rest => do
    let unit ← hexQuad a b c d
    let (units, after) ← readUnits rest
    return (unit :: units, after)
  | '\\' :: c :: rest => do
    let c ← unescape c
    let (units, after) ← readUnits rest
    return (c.toNat :: units, after)
  | c :: rest => do
    if c.toNat < 32 || c = '\\' then none
    else
      let (units, after) ← readUnits rest
      return (c.toNat :: units, after)

/-- A first half of a character. -/
def isHighHalf (n : Nat) : Bool := 0xD800 ≤ n && n < 0xDC00

/-- A second half of a character. -/
def isLowHalf (n : Nat) : Bool := 0xDC00 ≤ n && n < 0xE000

/-- The characters of numbers read, two halves making one; a half alone is refused. -/
def joinHalves : List Nat → Option (List Char)
  | [] => some []
  | high :: low :: rest =>
    if isHighHalf high && isLowHalf low then do
      let chars ← joinHalves rest
      return Char.ofNat (0x10000 + (high - 0xD800) * 0x400 + (low - 0xDC00)) :: chars
    else if isHighHalf high || isLowHalf high then none
    else do
      let chars ← joinHalves (low :: rest)
      return Char.ofNat high :: chars
  | [unit] => if isHighHalf unit || isLowHalf unit then none else some [Char.ofNat unit]

/-- Reads a text whose opening quote is already read. -/
def readText (s : List Char) : Option (String × List Char) := do
  let (units, rest) ← readUnits s
  let chars ← joinHalves units
  return (String.ofList chars, rest)

/-! ## Values -/

mutual

/-- Reads a value; `fuel` bounds the number of readings begun. -/
def readValue (fuel : Nat) (s : List Char) : Option (Value × List Char) :=
  match fuel with
  | 0 => none
  | fuel + 1 =>
    match skipSpace s with
    | 'n' :: 'u' :: 'l' :: 'l' :: rest => some (.null, rest)
    | 't' :: 'r' :: 'u' :: 'e' :: rest => some (.bool true, rest)
    | 'f' :: 'a' :: 'l' :: 's' :: 'e' :: rest => some (.bool false, rest)
    | '"' :: rest => do
      let (text, after) ← readText rest
      return (.str text, after)
    | '[' :: rest =>
      match skipSpace rest with
      | ']' :: after => some (.arr [], after)
      | _ => do
        let (items, after) ← readItems fuel rest
        return (.arr items, after)
    | '\x7b' :: rest =>
      match skipSpace rest with
      | '\x7d' :: after => some (.obj [], after)
      | _ => do
        let (entries, after) ← readEntries fuel rest
        return (.obj entries, after)
    | other => readNumber other

/-- Reads one item or more, up to the closing bracket. -/
def readItems (fuel : Nat) (s : List Char) : Option (List Value × List Char) :=
  match fuel with
  | 0 => none
  | fuel + 1 => do
    let (v, after) ← readValue fuel s
    match skipSpace after with
    | ']' :: rest => return ([v], rest)
    | ',' :: rest =>
      let (items, final) ← readItems fuel rest
      return (v :: items, final)
    | _ => none

/-- Reads one entry or more, up to the closing brace. -/
def readEntries (fuel : Nat) (s : List Char) : Option (List (String × Value) × List Char) :=
  match fuel with
  | 0 => none
  | fuel + 1 =>
    match skipSpace s with
    | '"' :: rest => do
      let (key, afterKey) ← readText rest
      match skipSpace afterKey with
      | ':' :: rest =>
        let (v, after) ← readValue fuel rest
        match skipSpace after with
        | '\x7d' :: rest => return ([(key, v)], rest)
        | ',' :: rest =>
          let (entries, final) ← readEntries fuel rest
          return ((key, v) :: entries, final)
        | _ => none
      | _ => none
    | _ => none

end

/-- The value of a text that holds one value and nothing but space around it. -/
def parse? (text : String) : Option Value := do
  let s := text.toList
  let (v, rest) ← readValue (2 * s.length + 2) s
  if (skipSpace rest).isEmpty then some v else none

end LexicalScope.Json
