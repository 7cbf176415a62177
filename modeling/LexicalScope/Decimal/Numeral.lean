import LexicalScope.Decimal.Shortest

/-!
How a floating-point number is written: its shortest decimal, with a point and at least one place
when the exponent is moderate, and in powers of ten otherwise. The sign of zero is kept.
-/

namespace LexicalScope

/-- The choices a format makes for floating-point numerals. -/
structure NumeralStyle where
  /-- The least exponent written without a power of ten. -/
  positionalFrom : Int
  /-- The least exponent, from there on, written with a power of ten again. -/
  positionalBelow : Int
  /-- The fewest digits of a written exponent. -/
  exponentWidth : Nat
  infinity : String
  notANumber : String

namespace NumeralStyle

/-- The digits of a decimal with a point after the first `point` of them, filled with zeros. -/
def positional (digits : List Char) (point : Int) : List Char :=
  if point ≤ 0 then '0' :: '.' :: (List.replicate (-point).toNat '0' ++ digits)
  else
    let whole := digits.take point.toNat
    let places := digits.drop point.toNat
    whole ++ List.replicate (point.toNat - whole.length) '0' ++
      '.' :: (if places.isEmpty then ['0'] else places)

/-- The digits of a decimal with a point after the first, and a power of ten. -/
def scientific (style : NumeralStyle) (digits : List Char) (exponent : Int) : List Char :=
  let shown := Nat.toDigits 10 exponent.natAbs
  digits.take 1 ++ (if digits.length ≤ 1 then [] else '.' :: digits.drop 1) ++
    'e' :: (if exponent < 0 then '-' else '+') ::
      (List.replicate (style.exponentWidth - shown.length) '0' ++ shown)

/-- A magnitude, by its shortest decimal. -/
def magnitude (style : NumeralStyle) (x : Binary64) : List Char :=
  if x.isZero then ['0', '.', '0']
  else
    let d := Decimal.shortest x
    let digits := Nat.toDigits 10 d.digits
    let exponent : Int := digits.length + d.exponent - 1
    if style.positionalFrom ≤ exponent ∧ exponent < style.positionalBelow then
      positional digits (exponent + 1)
    else scientific style digits exponent

def numeral (style : NumeralStyle) (x : Binary64) : List Char :=
  if Binary64.infinite < x.magnitude then style.notANumber.toList
  else
    (if x.isNegative then ['-'] else []) ++
      (if x.magnitude = Binary64.infinite then style.infinity.toList else style.magnitude x)

end NumeralStyle

end LexicalScope
