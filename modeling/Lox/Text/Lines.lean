/-!
# Line ends

A text may end its lines with a line feed, a carriage return or both.  Reading makes all of them
line feeds.
-/

namespace Lox.Text

def unifyLineEnds : List Char → List Char
  | [] => []
  | '\r' :: '\n' :: cs => '\n' :: unifyLineEnds cs
  | c :: cs => (if c = '\r' then '\n' else c) :: unifyLineEnds cs

/-- Continues a line after the characters `taken` in reverse; the last line need not be ended. -/
def splitLines (taken : List Char) : List Char → List String
  | [] => if taken.isEmpty then [] else [String.ofList taken.reverse]
  | c :: cs =>
    if c = '\n' then String.ofList taken.reverse :: splitLines [] cs
    else splitLines (c :: taken) cs

def lines (s : String) : List String := splitLines [] (unifyLineEnds s.toList)

end Lox.Text
