import Lox.Text.CodeRange

/-!
# Blank characters

Spaces, tabs, line ends and the separators of all scripts.  A character that merely shows nothing,
such as the zero-width space, is not blank.
-/

namespace Lox.Text

/-- The blank characters, as ascending ranges of code points. -/
def blankRanges : List (Nat × Nat) := [
  (0x9, 0xd), (0x1c, 0x20), (0x85, 0x85), (0xa0, 0xa0), (0x1680, 0x1680), (0x2000, 0x200a),
  (0x2028, 0x2029), (0x202f, 0x202f), (0x205f, 0x205f), (0x3000, 0x3000)]

def isBlank (c : Char) : Bool := inRanges blankRanges c.toNat

/-- Characters without those at either end that satisfy a predicate. -/
def trimEnds (p : Char → Bool) (cs : List Char) : List Char :=
  ((cs.dropWhile p).reverse.dropWhile p).reverse

def trimBlank (s : String) : String := String.ofList (trimEnds isBlank s.toList)

end Lox.Text
