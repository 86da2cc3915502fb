import Lox.Text.Printable

/-!
# Quoted text

Text is quoted with single quotes, or with double quotes when it holds a single quote and no double
one.  The backslash, the quote in use and the three common controls are escaped by a letter, other
characters that do not print by their code point.
-/

namespace Lox.Text

/-- Lower-case hexadecimal digits of a number, padded with zeros to a width. -/
def hex (width n : Nat) : String :=
  let digits := Nat.toDigits 16 n
  String.ofList (List.replicate (width - digits.length) '0' ++ digits)

def quoteFor (cs : List Char) : Char := if '\'' ∈ cs ∧ '"' ∉ cs then '"' else '\''

def escape (quote c : Char) : String :=
  if c = '\\' ∨ c = quote then String.ofList ['\\', c]
  else if c = '\n' then "\\n"
  else if c = '\r' then "\\r"
  else if c = '\t' then "\\t"
  else if isPrintable c then c.toString
  else if c.toNat < 0x100 then "\\x" ++ hex 2 c.toNat
  else if c.toNat < 0x10000 then "\\u" ++ hex 4 c.toNat
  else "\\U" ++ hex 8 c.toNat

def quoted (s : String) : String :=
  let quote := quoteFor s.toList
  quote.toString ++ String.join (s.toList.map (escape quote)) ++ quote.toString

end Lox.Text
