import Lox.Text.Grapheme
import Lox.Text.Numeric
import Lox.Token

/-!
# Segments of a source text

A source text is a list of graphemes, and it divides into segments: tokens, faults, and the trivia
between them.  `Segment.next` cuts off the first segment by the first rule that fits, taking as many
graphemes as the rule allows, and `Segment.divide` repeats it to the end.

A segment knows its graphemes and what they are.  Lines and positions are not part of it; they
follow from the segments before it.  A scanner (`Lox.Scan`) reads these same segments, but it counts
lines as it goes.
-/

namespace Lox

inductive Content
  /-- A token with its payload. -/
  | token (kind : Kind) (literal : Value)
  /-- A grapheme that starts no token. -/
  | invalid
  /-- A string without its closing quote. -/
  | openString
  | space
  | newline
  /-- A comment up to the end of the line, without the line end. -/
  | lineComment
  | blockComment
  /-- A block comment that still has `depth` levels open at the end of the input. -/
  | openComment (depth : Nat)
deriving DecidableEq

structure Segment where
  graphemes : List Grapheme
  content : Content
deriving DecidableEq

namespace Grapheme

/-- Whether a grapheme is a decimal digit without any mark. -/
def isDigit (g : Grapheme) : Bool := g.rest.isEmpty && g.first.isDigit

def startsName (g : Grapheme) : Bool := Text.isAlphabetic g.first || g.first = '_'

def continuesName (g : Grapheme) : Bool := Text.isAlphanumeric g.first || g.first = '_'

end Grapheme

namespace Segment

open Grapheme

/-- Splits off digits with at most one point, or with none if a point came before. -/
def splitNumber : (pointSeen : Bool) → List Grapheme → List Grapheme × List Grapheme
  | _, [] => ([], [])
  | pointSeen, g :: gs =>
    if g = single '.' then
      if pointSeen then ([], g :: gs)
      else ((g :: (splitNumber true gs).1), (splitNumber true gs).2)
    else if g.isDigit then
      ((g :: (splitNumber pointSeen gs).1), (splitNumber pointSeen gs).2)
    else ([], g :: gs)

/-- A block comment after its opening: its graphemes, what follows, and how many levels are still
open. -/
structure Comment where
  body : List Grapheme
  rest : List Grapheme
  depth : Nat
deriving DecidableEq

def Comment.cons (gs : List Grapheme) (c : Comment) : Comment := { c with body := gs ++ c.body }

/-- Splits off a block comment with `inner` levels open inside the outermost one.  An opening or a
closing pair is read as a unit, any other grapheme alone. -/
def splitComment : (inner : Nat) → List Grapheme → Comment
  | inner, [] => ⟨[], [], inner + 1⟩
  | inner, [g] => ⟨[g], [], inner + 1⟩
  | inner, g :: h :: gs =>
    if g = single '/' ∧ h = single '*' then (splitComment (inner + 1) gs).cons [g, h]
    else if g = single '*' ∧ h = single '/' then
      match inner with
      | 0 => ⟨[g, h], gs, 0⟩
      | inner + 1 => (splitComment inner gs).cons [g, h]
    else (splitComment inner (h :: gs)).cons [g]

def fixed (kind : Kind) (gs : List Grapheme) : Segment := ⟨gs, .token kind .nil⟩

def name (gs : List Grapheme) : Segment :=
  match Keyword.ofSpelling? (join gs) with
  | some word => fixed (.keyword word) gs
  | none => ⟨gs, .token .identifier (.identifier (join gs))⟩

/-- A number, whose payload is the nearest double. -/
def number (gs : List Grapheme) : Segment :=
  ⟨gs, .token .number (.number (Decimal.ofText (gs.flatMap chars)).toFloat)⟩

/-- The segment that starts with a slash: a comment of either form, or a token. -/
def nextSlash (g : Grapheme) (gs : List Grapheme) : Segment × List Grapheme :=
  match gs with
  | [] => (fixed .slash [g], [])
  | h :: rest =>
    if h = single '/' then
      (⟨g :: h :: rest.takeWhile (!·.isNewline), .lineComment⟩, rest.dropWhile (!·.isNewline))
    else if h = single '*' then
      let c := splitComment 0 rest
      (⟨g :: h :: c.body, if c.depth = 0 then .blockComment else .openComment c.depth⟩, c.rest)
    else (fixed .slash [g], h :: rest)

def nextString (g : Grapheme) (gs : List Grapheme) : Segment × List Grapheme :=
  let body := gs.takeWhile (· ≠ single '"')
  match gs.dropWhile (· ≠ single '"') with
  | [] => (⟨g :: body, .openString⟩, [])
  | quote :: rest => (⟨g :: body ++ [quote], .token .string (.string (join body))⟩, rest)

/-- The first segment of a text and what follows it. -/
def next (g : Grapheme) (gs : List Grapheme) : Segment × List Grapheme :=
  match g.char?.bind Kind.single? with
  | some kind => (fixed kind [g], gs)
  | none =>
  match g.char?.bind Kind.pair?, gs with
  | some (short, _), [] => (fixed short [g], [])
  | some (short, long), h :: rest =>
    if h = single '=' then (fixed long [g, h], rest) else (fixed short [g], h :: rest)
  | none, gs =>
  if g = single '/' then nextSlash g gs
  else if g.isSpace then (⟨[g], .space⟩, gs)
  else if g.isNewline then (⟨[g], .newline⟩, gs)
  else if g = single '"' then nextString g gs
  else if g.isDigit then (number (g :: (splitNumber false gs).1), (splitNumber false gs).2)
  else if g.startsName then
    (name (g :: gs.takeWhile (·.continuesName)), gs.dropWhile (·.continuesName))
  else (⟨[g], .invalid⟩, gs)

/-! ### Nothing is lost -/

theorem splitNumber_append (pointSeen : Bool) (gs : List Grapheme) :
    (splitNumber pointSeen gs).1 ++ (splitNumber pointSeen gs).2 = gs := by
  induction gs generalizing pointSeen with
  | nil => rfl
  | cons g gs ih =>
    unfold splitNumber
    repeat' split
    all_goals simp [ih]

theorem splitComment_append (inner : Nat) (gs : List Grapheme) :
    (splitComment inner gs).body ++ (splitComment inner gs).rest = gs := by
  fun_induction splitComment inner gs <;> simp_all [Comment.cons]

theorem fixed_graphemes (kind : Kind) (gs : List Grapheme) : (fixed kind gs).graphemes = gs := rfl

theorem number_graphemes (gs : List Grapheme) : (number gs).graphemes = gs := rfl

theorem name_graphemes (gs : List Grapheme) : (name gs).graphemes = gs := by
  unfold name
  split <;> rfl

theorem nextSlash_append (g : Grapheme) (gs : List Grapheme) :
    (nextSlash g gs).1.graphemes ++ (nextSlash g gs).2 = g :: gs := by
  unfold nextSlash
  repeat' split
  all_goals simp [fixed, splitComment_append]

theorem nextString_append (g : Grapheme) (gs : List Grapheme) :
    (nextString g gs).1.graphemes ++ (nextString g gs).2 = g :: gs := by
  have h := List.takeWhile_append_dropWhile (p := (· ≠ single '"')) (l := gs)
  unfold nextString
  split <;> rename_i heq <;> rw [heq] at h <;> simpa using h

theorem next_append (g : Grapheme) (gs : List Grapheme) :
    (next g gs).1.graphemes ++ (next g gs).2 = g :: gs := by
  unfold next
  repeat' split
  all_goals simp [fixed_graphemes, number_graphemes, name_graphemes, nextSlash_append,
    nextString_append, splitNumber_append]

theorem nextSlash_graphemes_ne_nil (g : Grapheme) (gs : List Grapheme) :
    (nextSlash g gs).1.graphemes ≠ [] := by
  unfold nextSlash
  repeat' split
  all_goals simp [fixed]

theorem nextString_graphemes_ne_nil (g : Grapheme) (gs : List Grapheme) :
    (nextString g gs).1.graphemes ≠ [] := by
  unfold nextString
  split <;> simp

theorem next_graphemes_ne_nil (g : Grapheme) (gs : List Grapheme) :
    (next g gs).1.graphemes ≠ [] := by
  unfold next
  repeat' split
  all_goals simp [fixed_graphemes, number_graphemes, name_graphemes, nextSlash_graphemes_ne_nil,
    nextString_graphemes_ne_nil]

theorem length_next_lt (g : Grapheme) (gs : List Grapheme) :
    (next g gs).2.length < (g :: gs).length := by
  have h := congrArg List.length (next_append g gs)
  have := List.length_pos_iff.2 (next_graphemes_ne_nil g gs)
  rw [List.length_append] at h
  omega

def divide : List Grapheme → List Segment
  | [] => []
  | g :: gs => (next g gs).1 :: divide (next g gs).2
termination_by gs => gs.length
decreasing_by exact length_next_lt g gs

end Segment

end Lox
