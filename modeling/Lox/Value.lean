import Lox.Decimal.Layout
import Lox.Text.Quoted

/-!
# Values

What an expression evaluates to: nothing, a boolean, a double or a string.  The payload of an
identifier token is a value too, of a kind of its own.

A value has a display text, which the program prints, and an inspection text, which names its kind.
Equality never holds between kinds, and on numbers it is that of doubles: `NaN` differs from itself
and the two zeros are equal.
-/

namespace Lox

inductive Value
  | nil
  | boolean (b : Bool)
  | number (x : Float)
  | string (s : String)
  | identifier (name : String)
deriving DecidableEq

instance : Inhabited Value := ⟨.nil⟩

/-- Numerals are positional from `0.0001` up to sixteen digits before the point, and an exponent has
at least two digits. -/
def numeral : Layout := ⟨-4, 15, 2⟩

def Double.sign (x : Double) : String := if x.negative then "-" else ""

/-- The text of a double in shortest digits, always with a point or an exponent. -/
def Double.inspect (x : Double) : String :=
  if x.isNaN then "nan"
  else if x.isInfinite then x.sign ++ "inf"
  else x.sign ++ x.shortest.write numeral

/-- The text of a double as the language shows it: whole numbers in full and without a point. -/
def Double.display (x : Double) : String :=
  if x.isNaN then "NaN"
  else if x.isInfinite then x.sign ++ "inf"
  else if x.isIntegral then x.sign ++ (x.num / x.den).repr
  else x.sign ++ x.shortest.write numeral

def displayNumber (x : Float) : String := (Double.ofFloat x).display

namespace Value

def display : Value → String
  | nil => "nil"
  | boolean b => if b then "true" else "false"
  | number x => displayNumber x
  | string s => s
  | identifier name => name

/-- The text that names the kind of a value and shows its content; there is none for nil. -/
def inspect? : Value → Option String
  | nil => none
  | boolean b => some (if b then "BooleanLiteral(True)" else "BooleanLiteral(False)")
  | number x => some ("NumberLiteral(" ++ (Double.ofFloat x).inspect ++ ")")
  | string s => some ("StringLiteral(" ++ Text.quoted s ++ ")")
  | identifier name => some ("IdentifierLiteral(" ++ Text.quoted name ++ ")")

/-- Only nil and false count as false. -/
def isTruthy : Value → Bool
  | nil => false
  | boolean b => b
  | _ => true

def equal : Value → Value → Bool
  | nil, nil => true
  | boolean a, boolean b => a = b
  | number a, number b => a == b
  | string a, string b => a = b
  | identifier a, identifier b => a = b
  | _, _ => false

/-- The values that differ from all before them, first occurrences in order. -/
def distinct (values : List Value) : List Value :=
  values.foldl (fun seen v => if seen.any (equal v) then seen else seen ++ [v]) []

end Value

end Lox
