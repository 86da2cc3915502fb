import Lox.Decimal.Nearest

/-!
# The shortest decimal of a double

The shortest decimal of a double is the one with the fewest digits that reads back as that double,
and the nearest of those.  On the grid of the decimals with `n` digits only the two neighbours of
the value can be the answer: if any grid point reads back, one of them does.  `shortest` tries the
grids with one to seventeen digits and takes the first that has a hit; between two hits the nearer
wins and an exact tie goes to the even digit.  Past the last grid it falls back to the exact value,
which always reads back.
-/

namespace Lox

/-- The parts of a double: its sign and the bits of its magnitude. -/
structure Double where
  negative : Bool
  magnitude : Nat
deriving DecidableEq, Repr

namespace Double

def ofFloat (x : Float) : Double :=
  let bits := x.toBits.toNat
  ⟨Nat.pow 2 63 ≤ bits, bits % Nat.pow 2 63⟩

def isNaN (x : Double) : Bool := Decimal.infinityBits < x.magnitude

def isInfinite (x : Double) : Bool := x.magnitude = Decimal.infinityBits

def significand (x : Double) : Nat :=
  if x.magnitude / Nat.pow 2 52 = 0 then x.magnitude
  else x.magnitude % Nat.pow 2 52 + Nat.pow 2 52

/-- The exponent of two that goes with the significand. -/
def exponent (x : Double) : Int := Decimal.minExponent + (x.magnitude / Nat.pow 2 52 - 1 : Nat)

/-- The magnitude of a finite double is the fraction `num / den`. -/
def num (x : Double) : Nat := x.significand * Nat.pow 2 x.exponent.toNat

def den (x : Double) : Nat := Nat.pow 2 (-x.exponent).toNat

def isIntegral (x : Double) : Bool := x.num % x.den = 0

def exact (x : Double) : Decimal :=
  if 0 ≤ x.exponent then ⟨x.num, 0⟩
  else ⟨x.significand * Nat.pow 5 (-x.exponent).toNat, x.exponent⟩

/-- The place of the first digit of a positive double: `10 ^ (k - 1) ≤ num / den < 10 ^ k`.  The
smallest double exceeds `10 ^ (-324)`, so scaling by that power loses no leading digit. -/
def decimalOrder (x : Double) : Int :=
  ((x.num * Nat.pow 10 324 / x.den).repr.length : Int) - 324

def readsBack (x : Double) (d : Decimal) : Bool := d.toBits = x.magnitude

/-- The decimal on the grid of the multiples of `10 ^ unit` that reads back and lies nearest to the
magnitude, if one of the two neighbours does read back. -/
def onGrid? (x : Double) (unit : Int) : Option Decimal :=
  let num := x.num * Nat.pow 10 (-unit).toNat
  let den := x.den * Nat.pow 10 unit.toNat
  let below : Decimal := ⟨num / den, unit⟩
  let above : Decimal := ⟨num / den + 1, unit⟩
  match x.readsBack below, x.readsBack above with
  | true, true =>
    let twice := 2 * (num % den)
    if twice < den || (twice = den && below.digits % 2 = 0) then some below else some above
  | true, false => some below
  | false, true => some above
  | false, false => none

/-- The shortest decimal among those with up to seventeen digits, else the exact value. -/
def shortest (x : Double) : Decimal :=
  if x.magnitude = 0 then ⟨0, 0⟩ else
  let order := x.decimalOrder
  (((List.range 17).findSome? fun n => x.onGrid? (order - (n + 1 : Nat))).getD x.exact).trim

end Double

end Lox
