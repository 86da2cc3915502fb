import Lox.Text.Blank
import Lox.Text.Numeric

/-!
# Integers as text

An integer is written with decimal digits of any script, a single underscore allowed between two of
them, perhaps a sign in front, and blanks around it.  The four separators U+001C to U+001F do not
count as blanks here.  There are at most `maxDigits` digits, leading zeros included.
-/

namespace Lox.Text

/-- The blanks that may surround an integer. -/
def isPadding (c : Char) : Bool := isBlank c && !(0x1c ≤ c.toNat && c.toNat ≤ 0x1f)

/-- The value of more digits after those of `value`. -/
def moreDigits? (value : Nat) : List Char → Option Nat
  | [] => some value
  | [c] => (digitValue? c).map (10 * value + ·)
  | c :: d :: cs =>
    if c = '_' then (digitValue? d).bind fun n => moreDigits? (10 * value + n) cs
    else (digitValue? c).bind fun n => moreDigits? (10 * value + n) (d :: cs)

def maxDigits : Nat := 4300

/-- The value of digits, at least one and not too many. -/
def natural? : List Char → Option Nat
  | [] => none
  | c :: cs =>
    if maxDigits < (c :: cs).countP (· ≠ '_') then none
    else (digitValue? c).bind fun n => moreDigits? n cs

def integer? (s : String) : Option Int :=
  match trimEnds isPadding s.toList with
  | '+' :: cs => (natural? cs).map Int.ofNat
  | '-' :: cs => (natural? cs).map fun n => -Int.ofNat n
  | cs => (natural? cs).map Int.ofNat

end Lox.Text
