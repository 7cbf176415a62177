import LexicalScope.Binary64

/-!
The shortest decimal of a binary64 number: of the decimals that read back as the number, those with
the fewest digits, and of these the nearest; an exact tie goes to the even last digit. The numbers
that read back as `m · 2 ^ q` form an interval around it, whose ends belong to it exactly when `m` is
even.
-/

namespace LexicalScope

/-- The number `digits · 10 ^ exponent`. -/
structure Decimal where
  digits : Nat
  exponent : Int
deriving DecidableEq

namespace Decimal

/-- Compares `a · 10 ^ p` with `b · 2 ^ e`. -/
def compareBinary (a : Nat) (p : Int) (b : Nat) (e : Int) : Ordering :=
  compare (a * Nat.pow 10 p.toNat * Nat.pow 2 (-e).toNat)
    (b * Nat.pow 2 e.toNat * Nat.pow 10 (-p).toNat)

/-- A decimal that reads back as `x`: it lies between the halfway points to the neighbours of `x`.
    Below a power of two the neighbour is only half as far. -/
def readsBackAs (d : Decimal) (x : Binary64) : Bool :=
  let m := x.significand
  let unit := x.scale - 2
  let low := if m = Binary64.leading ∧ -1074 < x.scale then 4 * m - 1 else 4 * m - 2
  let high := 4 * m + 2
  let closed := m % 2 = 0
  let above := compareBinary d.digits d.exponent low unit
  let below := compareBinary d.digits d.exponent high unit
  (above = .gt || (closed && above = .eq)) && (below = .lt || (closed && below = .eq))

/-- The whole part of `m · 2 ^ q / 10 ^ p`. -/
def wholePart (m : Nat) (q p : Int) : Nat :=
  m * Nat.pow 2 q.toNat * Nat.pow 10 (-p).toNat / (Nat.pow 2 (-q).toNat * Nat.pow 10 p.toNat)

/-- How many digits stand before the decimal point of a positive number; negative or zero when
    zeros follow the point. -/
def pointOf (x : Binary64) : Int :=
  (Nat.toDigits 10 (wholePart x.significand x.scale (-350))).length - 350

/-- The decimal of a step of the grid `10 ^ p` next to `x` that reads back as `x`, if any. -/
def onGrid? (x : Binary64) (p : Int) : Option Decimal :=
  let low := wholePart x.significand x.scale p
  let down : Decimal := ⟨low, p⟩
  let up : Decimal := ⟨low + 1, p⟩
  if down.readsBackAs x then
    if up.readsBackAs x then
      match compareBinary (2 * low + 1) p (2 * x.significand) x.scale with
      | .lt => some up
      | .gt => some down
      | .eq => some (if low % 2 = 0 then down else up)
    else some down
  else if up.readsBackAs x then some up
  else none

/-- The decimal without the zeros that end its digits. -/
def trim : Nat → Decimal → Decimal
  | 0, d => d
  | n + 1, d =>
    if d.digits ≠ 0 ∧ d.digits % 10 = 0 then trim n ⟨d.digits / 10, d.exponent + 1⟩ else d

/-- The shortest decimal of a positive finite number: the first grid, from one digit to seventeen,
    with a decimal that reads back. -/
def shortest (x : Binary64) : Decimal :=
  let point := pointOf x
  let grids := (List.range 17).map fun (n : Nat) => point - (n : Int) - 1
  trim 20 ((grids.findSome? (onGrid? x)).getD ⟨0, 0⟩)

end Decimal

end LexicalScope
