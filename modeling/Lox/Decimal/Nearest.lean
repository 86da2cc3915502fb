import Lox.Decimal.Basic

/-!
# The double nearest to a decimal

A finite non-negative double is `m · 2 ^ q` with `m < 2 ^ 53` and `-1074 ≤ q`, and its bits are
`(q + 1074) · 2 ^ 52 + m` whenever `q = -1074` or `2 ^ 52 ≤ m`.  The formula also carries a
significand that rounds up to `2 ^ 53` into the next exponent, so one rounding of the scaled
quotient gives the bits of the nearest double.  A half goes to the even neighbour, and whatever lies
beyond the largest double becomes infinity.
-/

namespace Lox

namespace Decimal

/-- The quotient rounded to the nearest integer; a half goes to the even neighbour. -/
def divRound (num den : Nat) : Nat :=
  let quotient := num / den
  let twice := 2 * (num % den)
  if twice < den then quotient
  else if den < twice then quotient + 1
  else quotient + quotient % 2

/-- The integer `e` with `2 ^ e ≤ num / den < 2 ^ (e + 1)`, for positive `num` and `den`.  The
difference of the two logarithms is that integer or one more. -/
def log2Ratio (num den : Nat) : Int :=
  let e : Int := (num.log2 : Int) - den.log2
  if den * Nat.pow 2 e.toNat ≤ num * Nat.pow 2 (-e).toNat then e else e - 1

/-- The least exponent of a double's significand. -/
def minExponent : Int := -1074

/-- The bits of positive infinity, the bound of all magnitudes. -/
def infinityBits : Nat := 0x7ff * Nat.pow 2 52

/-- The bits of `m · 2 ^ q` for a significand `m` in place, infinity when the exponent is too large.
-/
def packBits (m : Nat) (q : Int) : Nat :=
  min ((q - minExponent).toNat * Nat.pow 2 52 + m) infinityBits

/-- The bits of the double nearest to `num / den`. -/
def nearestBits (num den : Nat) : Nat :=
  if num = 0 then 0 else
  let q := max (log2Ratio num den - 52) minExponent
  packBits (divRound (num * Nat.pow 2 (-q).toNat) (den * Nat.pow 2 q.toNat)) q

def toBits (d : Decimal) : Nat := nearestBits d.num d.den

def toFloat (d : Decimal) : Float := Float.ofBits d.toBits.toUInt64

end Decimal

end Lox
