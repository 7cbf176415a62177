/-!
A binary64 number is held as its 64 bits. A finite magnitude is `significand · 2 ^ scale`, and a
decimal numeral becomes the number nearest to it, a tie going to the even significand.
-/

namespace LexicalScope

/-- A binary64 number, held as its bits. -/
structure Binary64 where
  bits : UInt64
deriving DecidableEq

namespace Binary64

/-! ## The fields of a number -/

/-- The weight of the sign bit, the sixty-fourth. -/
def signWeight : Nat := 0x8000000000000000

/-- The weight of the leading bit of a significand, the fifty-third. -/
def leading : Nat := 0x10000000000000

/-- The sign bit. -/
def isNegative (x : Binary64) : Bool := signWeight ≤ x.bits.toNat

/-- The bits below the sign, in order of magnitude. -/
def magnitude (x : Binary64) : Nat := x.bits.toNat % signWeight

/-- Either zero. -/
def isZero (x : Binary64) : Bool := x.magnitude = 0

/-- The bits of the infinite magnitude; the finite ones lie below. -/
def infinite : Nat := 2047 * leading

/-- The whole number that `2 ^ scale` multiplies; the leading bit of a normal number is implicit. -/
def significand (x : Binary64) : Nat :=
  if x.magnitude < leading then x.magnitude else leading + x.magnitude % leading

/-- The power of two that the significand counts. -/
def scale (x : Binary64) : Int :=
  if x.magnitude < leading then -1074 else Int.ofNat (x.magnitude / leading) - 1075

/-- The number with a sign and a magnitude; magnitudes past the infinite one are infinite. -/
def ofMagnitude (negative : Bool) (magnitude : Nat) : Binary64 :=
  ⟨UInt64.ofNat ((if negative then signWeight else 0) + min magnitude infinite)⟩

/-! ## The nearest number to a decimal -/

/-- The whole number nearest to `num / den`, a tie going to the even one. -/
def roundQuotient (num den : Nat) : Nat :=
  let low := num / den
  let twice := 2 * (num % den)
  if twice < den then low
  else if den < twice then low + 1
  else low + low % 2

/-- The magnitude nearest to `num / den`, for positive `num` and `den`. -/
def nearest (num den : Nat) : Nat :=
  let estimate : Int := (num.log2 : Int) - (den.log2 : Int) - 53
  let start := max estimate (-1074)
  let scaled (q : Int) : Nat × Nat := (num * Nat.pow 2 (-q).toNat, den * Nat.pow 2 q.toNat)
  let (n, d) := scaled start
  let q := if 2 * leading ≤ n / d then start + 1 else start
  let (n, d) := scaled q
  (q + 1074).toNat * leading + roundQuotient n d

/-- The number nearest to `digits · 10 ^ exponent`. Past the range of the format the result is
    infinite, or zero, without computing the power. -/
def ofDecimal (negative : Bool) (digits : Nat) (exponent : Int) : Binary64 :=
  let size : Int := (Nat.toDigits 10 digits).length + exponent
  if digits = 0 ∨ size < -330 then ofMagnitude negative 0
  else if 310 < size then ofMagnitude negative infinite
  else
    let num := digits * Nat.pow 10 exponent.toNat
    ofMagnitude negative (nearest num (Nat.pow 10 (-exponent).toNat))

end Binary64

end LexicalScope
