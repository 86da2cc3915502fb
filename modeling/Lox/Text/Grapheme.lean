import Lox.Text.Grapheme.Break

/-!
# Graphemes

A grapheme is what a reader takes for one character: a base with the marks that attach to it, a
Hangul syllable, a flag, a joined picture, or a line end of two characters.  It has at least one
character, and the type says so.

`Grapheme.ofChars` divides a text.  It walks the characters with an `Edge`, all that the rules need
to know of the grapheme in progress, and starts a new grapheme wherever `Edge.joins` says no.
Nothing is lost: the characters of the graphemes are the characters of the text.
-/

namespace Lox

structure Grapheme where
  first : Char
  rest : List Char
deriving DecidableEq, Repr

namespace Grapheme

def chars (g : Grapheme) : List Char := g.first :: g.rest

def text (g : Grapheme) : String := String.ofList g.chars

def single (c : Char) : Grapheme := ⟨c, []⟩

def char? (g : Grapheme) : Option Char := if g.rest.isEmpty then some g.first else none

def isNewline (g : Grapheme) : Bool := g = single '\n' || g = ⟨'\r', ['\n']⟩

/-- Whether a grapheme is blank within a line. -/
def isSpace (g : Grapheme) : Bool := g = single ' ' || g = single '\r' || g = single '\t'

end Grapheme

/-- The end of a grapheme in progress. -/
structure Edge where
  /-- The class of the last character. -/
  last : Text.Break
  /-- The last characters are a pictographic one and marks. -/
  picture : Bool
  /-- The last characters are a picture and a joiner. -/
  joined : Bool
  /-- The last characters are an odd number of regional indicators. -/
  halfFlag : Bool
deriving DecidableEq, Repr

namespace Edge

open Text

def start (c : Char) : Edge where
  last := breakOf c
  picture := isPictographic c
  joined := false
  halfFlag := breakOf c = .regional

/-- Whether a character continues the grapheme. -/
def joins (e : Edge) (c : Char) : Bool :=
  match e.last, breakOf c with
  | .cr, .lf => true
  | .cr, _ | .lf, _ | .control, _ => false
  | _, .cr | _, .lf | _, .control => false
  | .leading, .leading | .leading, .vowel => true
  | .leading, .openSyllable | .leading, .closedSyllable => true
  | .vowel, .vowel | .vowel, .trailing | .openSyllable, .vowel | .openSyllable, .trailing => true
  | .trailing, .trailing | .closedSyllable, .trailing => true
  | _, .extend | _, .zwj | _, .spacing => true
  | .prepended, _ => true
  | .zwj, _ => e.joined && isPictographic c
  | .regional, .regional => e.halfFlag
  | _, _ => false

/-- The edge after a character that joined. -/
def push (e : Edge) (c : Char) : Edge where
  last := breakOf c
  picture := isPictographic c || (e.picture && breakOf c = .extend)
  joined := e.picture && breakOf c = .zwj
  halfFlag := breakOf c = .regional && !e.halfFlag

end Edge

namespace Grapheme

/-- Continues the grapheme `first` followed by `taken` in reverse, and divides what comes after. -/
def divide (e : Edge) (first : Char) (taken : List Char) : List Char → List Grapheme
  | [] => [⟨first, taken.reverse⟩]
  | c :: cs =>
    if e.joins c then divide (e.push c) first (c :: taken) cs
    else ⟨first, taken.reverse⟩ :: divide (.start c) c [] cs

def ofChars : List Char → List Grapheme
  | [] => []
  | c :: cs => divide (.start c) c [] cs

def ofString (s : String) : List Grapheme := ofChars s.toList

def join (gs : List Grapheme) : String := String.ofList (gs.flatMap chars)

theorem flatMap_chars_divide (e : Edge) (first : Char) (taken cs : List Char) :
    (divide e first taken cs).flatMap chars = first :: taken.reverse ++ cs := by
  induction cs generalizing e first taken with
  | nil => simp [divide, chars]
  | cons c cs ih =>
    unfold divide
    split
    · rw [ih]
      simp
    · simp [ih, chars]

theorem flatMap_chars_ofChars (cs : List Char) : (ofChars cs).flatMap chars = cs := by
  cases cs with
  | nil => rfl
  | cons c cs => simp [ofChars, flatMap_chars_divide]

end Grapheme

end Lox
