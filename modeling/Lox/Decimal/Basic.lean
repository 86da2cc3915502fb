/-!
# Decimals

A `Decimal` is a non-negative number written with finitely many digits: `digits · 10 ^ exponent`.
Number literals denote decimals, and every finite double is one, because a power of two divides a
power of ten.
-/

namespace Lox

/-- The number `digits · 10 ^ exponent`. -/
structure Decimal where
  digits : Nat
  exponent : Int
deriving DecidableEq, Repr

namespace Decimal

def num (d : Decimal) : Nat := d.digits * Nat.pow 10 d.exponent.toNat

def den (d : Decimal) : Nat := Nat.pow 10 (-d.exponent).toNat

theorem den_pos (d : Decimal) : 0 < d.den := Nat.pow_pos (by decide)

/-- Drops final zeros of the digits and raises the exponent for each, at most `bound` of them. -/
def dropZeros : (bound : Nat) → Decimal → Decimal
  | 0, d => d
  | bound + 1, d =>
    if d.digits ≠ 0 ∧ d.digits % 10 = 0 then dropZeros bound ⟨d.digits / 10, d.exponent + 1⟩ else d

/-- The same number with digits that do not end in zero. -/
def trim (d : Decimal) : Decimal := d.dropZeros d.digits.log2

/-- The value of one decimal digit; other characters count as zero. -/
def digitOf (c : Char) : Nat := if c.isDigit then c.toNat - 48 else 0

def natOfDigits (cs : List Char) : Nat := cs.foldl (fun n c => 10 * n + digitOf c) 0

/-- The decimal that digits with at most one point denote.  The digits after the point count as
negative powers of ten; a final point adds nothing. -/
def ofText (cs : List Char) : Decimal :=
  let whole := cs.takeWhile (· ≠ '.')
  let fraction := (cs.dropWhile (· ≠ '.')).drop 1
  ⟨natOfDigits (whole ++ fraction), -fraction.length⟩

end Decimal

end Lox
