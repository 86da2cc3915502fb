import Lox.Decimal.Shortest

/-!
# Writing a decimal

A decimal is written positionally while the exponent of its first digit lies in the range that the
`Layout` names, and with an exponent outside that range.
-/

namespace Lox

/-- Where positional notation ends and how an exponent is written. -/
structure Layout where
  /-- The least exponent of a first digit that is written positionally. -/
  least : Int
  /-- The largest exponent of a first digit that is written positionally. -/
  most : Int
  /-- The least number of digits of a written exponent. -/
  exponentWidth : Nat
deriving DecidableEq, Repr

namespace Decimal

def padded (width n : Nat) : String :=
  let text := n.repr
  String.ofList (List.replicate (width - text.length) '0') ++ text

/-- Digits with the point after the first `place` of them.  Zeros fill up either side, and a whole
number keeps one zero after its point. -/
def positional (digits : List Char) (place : Int) : String :=
  if place ≤ 0 then
    "0." ++ String.ofList (List.replicate (-place).toNat '0' ++ digits)
  else
    let whole := digits.take place.toNat
    let fraction := digits.drop place.toNat
    let zeros := List.replicate (place.toNat - digits.length) '0'
    String.ofList (whole ++ zeros) ++ "." ++
      (if fraction.isEmpty then "0" else String.ofList fraction)

/-- Digits with the point after the first of them, then the exponent with its sign. -/
def scientific (digits : List Char) (exponent : Int) (width : Nat) : String :=
  let fraction := digits.drop 1
  String.ofList (digits.take 1) ++
    (if fraction.isEmpty then "" else "." ++ String.ofList fraction) ++
    (if exponent < 0 then "e-" else "e+") ++ padded width exponent.natAbs

def write (layout : Layout) (d : Decimal) : String :=
  let digits := d.digits.repr.toList
  let place : Int := digits.length + d.exponent
  if layout.least ≤ place - 1 ∧ place - 1 ≤ layout.most then positional digits place
  else scientific digits (place - 1) layout.exponentWidth

end Decimal

end Lox
