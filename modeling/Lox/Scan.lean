import Lox.Diagnostic
import Lox.Segment

/-!
# Scanning

The scan of a source text is the list of its tokens and lexical errors in source order, ended by one
end-of-input token, and beside it the warnings.

`Scanner.step` reads one segment off the text, and `Scanner.run` repeats it to the end.  A scanner
carries the line that it is on.  It counts a line end where it comes upon one: between tokens, in a
string and in a block comment.  A line comment stops in front of the line end, and no other segment
has one.  A token is on the line that the scanner is on when the token is complete, but a string, and
a warning about a comment, is on the line where it opened.

Lexical errors never stop a scan.  `tokenize` is for callers who want none of them.
-/

namespace Lox

/-- What is wrong with a faulty segment. -/
inductive LexicalFault
  | invalidCharacter (g : Grapheme)
  | unterminatedString
deriving DecidableEq, Repr

/-- A fault at the place where its segment starts; positions count graphemes from zero. -/
structure LexicalError where
  fault : LexicalFault
  line : Nat
  position : Nat
deriving DecidableEq, Repr

/-- A block comment that is open at the end of the input: its first line and its open levels. -/
structure LexicalWarning where
  line : Nat
  depth : Nat
deriving DecidableEq, Repr

def lexicalCodes : List (String × String) := [
  ("L001", "Invalid character"),
  ("L002", "Unterminated string literal"),
  ("W001", "Unterminated block comment")]

namespace LexicalError

def location (e : LexicalError) : String :=
  "line " ++ toString e.line ++ " pos " ++ toString e.position

def code (e : LexicalError) : String :=
  match e.fault with
  | .invalidCharacter _ => "L001"
  | .unterminatedString => "L002"

def message (e : LexicalError) : String :=
  match e.fault with
  | .invalidCharacter g => "Invalid token at " ++ e.location ++ ": " ++ g.text
  | .unterminatedString => "Unterminated string at " ++ e.location

/-- Upper-case hexadecimal digits of a code point, four at least. -/
def codePoint (c : Char) : String := ((Text.hex 4 c.toNat).map Char.toUpper)

/-- The hint quotes the grapheme if all of it prints, and names its first code point otherwise. -/
def help (e : LexicalError) : String :=
  match e.fault with
  | .invalidCharacter g =>
    if g.chars.all Text.isPrintable then
      "The character '" ++ g.text ++ "' is not valid outside a string literal."
    else "Non-printable character (Unicode: U+" ++ codePoint g.first ++ ") is not allowed."
  | .unterminatedString => "String literals must be closed with a matching '\"'."

def diagnostic (e : LexicalError) : Diagnostic :=
  ⟨.error, e.message, e.line, e.code, some e.help⟩

def report (e : LexicalError) : String := lineReport e.line e.message

end LexicalError

namespace LexicalWarning

def code : String := "W001"

def message (w : LexicalWarning) : String :=
  "Unterminated block comment starting on line " ++ toString w.line

def help (w : LexicalWarning) : String :=
  toString w.depth ++ " '/*' still open at end of input; the rest of the file was ignored."

def diagnostic (w : LexicalWarning) : Diagnostic := ⟨.warning, w.message, w.line, code, some w.help⟩

end LexicalWarning

inductive ScanItem
  | token (t : Token)
  | error (e : LexicalError)
deriving DecidableEq

namespace ScanItem

def token? : ScanItem → Option Token
  | token t => some t
  | error _ => none

def error? : ScanItem → Option LexicalError
  | token _ => none
  | error e => some e

end ScanItem

/-- The result of a scan: what was found, and the line and position where it stopped. -/
structure Scan where
  items : List ScanItem
  warnings : List LexicalWarning
  line : Nat
  position : Nat
deriving DecidableEq

namespace Scan

def empty : Scan := ⟨[], [], 1, 0⟩

end Scan

/-- What a scanner reads in one step, and what it adds to the result. -/
structure ScanStep where
  lexeme : List Grapheme
  rest : List Grapheme
  /-- The line that the scanner is on behind the lexeme. -/
  line : Nat
  item? : Option ScanItem := none
  warning? : Option LexicalWarning := none
deriving DecidableEq

namespace Scanner

open Grapheme

/-- The line behind a grapheme, where line ends are counted. -/
def lineBehind (line : Nat) (g : Grapheme) : Nat := if g.isNewline then line + 1 else line

/-- A part of the text that was read, what follows it, and the line behind it. -/
structure Stretch where
  body : List Grapheme
  rest : List Grapheme
  line : Nat
deriving DecidableEq

def Stretch.cons (gs : List Grapheme) (s : Stretch) : Stretch := { s with body := gs ++ s.body }

/-- Reads a string behind its opening quote, up to the closing one. -/
def readString : (line : Nat) → List Grapheme → Stretch
  | line, [] => ⟨[], [], line⟩
  | line, g :: gs =>
    if g = single '"' then ⟨[], g :: gs, line⟩ else (readString (lineBehind line g) gs).cons [g]

/-- Reads a block comment behind its opening, with `inner` levels open inside the outermost one, and
tells how many are open at the end.  Only a grapheme that is read alone can be a line end. -/
def readComment : (line inner : Nat) → List Grapheme → Stretch × Nat
  | line, inner, [] => (⟨[], [], line⟩, inner + 1)
  | line, inner, [g] => (⟨[g], [], lineBehind line g⟩, inner + 1)
  | line, inner, g :: h :: gs =>
    if g = single '/' ∧ h = single '*' then
      let (s, depth) := readComment line (inner + 1) gs
      (s.cons [g, h], depth)
    else if g = single '*' ∧ h = single '/' then
      match inner with
      | 0 => (⟨[g, h], gs, line⟩, 0)
      | inner + 1 =>
        let (s, depth) := readComment line inner gs
        (s.cons [g, h], depth)
    else
      let (s, depth) := readComment (lineBehind line g) inner (h :: gs)
      (s.cons [g], depth)

def token (line : Nat) (kind : Kind) (literal : Value) (lexeme rest : List Grapheme) :
    ScanStep where
  lexeme
  rest
  line
  item? := some (.token ⟨kind, join lexeme, literal, line⟩)

/-- A step behind a slash: a comment of either form, or a token. -/
def stepSlash (line : Nat) (g : Grapheme) (gs : List Grapheme) : ScanStep :=
  match gs with
  | [] => token line .slash .nil [g] []
  | h :: rest =>
    if h = single '/' then
      -- the line end is left for the next step to count
      { lexeme := g :: h :: rest.takeWhile (!·.isNewline)
        rest := rest.dropWhile (!·.isNewline)
        line }
    else if h = single '*' then
      let (s, depth) := readComment line 0 rest
      { lexeme := g :: h :: s.body
        rest := s.rest
        line := s.line
        warning? := if depth = 0 then none else some ⟨line, depth⟩ }
    else token line .slash .nil [g] (h :: rest)

def stepString (line position : Nat) (g : Grapheme) (gs : List Grapheme) : ScanStep :=
  let s := readString line gs
  match s.rest with
  | [] =>
    { lexeme := g :: s.body
      rest := []
      line := s.line
      item? := some (.error ⟨.unterminatedString, line, position⟩) }
  | quote :: rest =>
    { lexeme := g :: s.body ++ [quote]
      rest
      line := s.line
      item? := some (.token
        ⟨.string, join (g :: s.body ++ [quote]), .string (join s.body), line⟩) }

def stepName (line : Nat) (lexeme rest : List Grapheme) : ScanStep :=
  match Keyword.ofSpelling? (join lexeme) with
  | some word => token line (.keyword word) .nil lexeme rest
  | none => token line .identifier (.identifier (join lexeme)) lexeme rest

/-- Reads the next segment of a text, from a line and a position on. -/
def step (line position : Nat) (g : Grapheme) (gs : List Grapheme) : ScanStep :=
  match g.char?.bind Kind.single? with
  | some kind => token line kind .nil [g] gs
  | none =>
  match g.char?.bind Kind.pair?, gs with
  | some (short, _), [] => token line short .nil [g] []
  | some (short, long), h :: rest =>
    if h = single '=' then token line long .nil [g, h] rest
    else token line short .nil [g] (h :: rest)
  | none, gs =>
  if g = single '/' then stepSlash line g gs
  else if g.isSpace then { lexeme := [g], rest := gs, line }
  else if g.isNewline then { lexeme := [g], rest := gs, line := line + 1 }
  else if g = single '"' then stepString line position g gs
  else if g.isDigit then
    let lexeme := g :: (Segment.splitNumber false gs).1
    token line .number (.number (Decimal.ofText (lexeme.flatMap chars)).toFloat) lexeme
      (Segment.splitNumber false gs).2
  else if g.startsName then
    stepName line (g :: gs.takeWhile (·.continuesName)) (gs.dropWhile (·.continuesName))
  else
    { lexeme := [g]
      rest := gs
      line
      item? := some (.error ⟨.invalidCharacter g, line, position⟩) }

/-! ### A step leaves less of the text -/

theorem readString_suffix (line : Nat) (gs : List Grapheme) :
    (readString line gs).rest <:+ gs := by
  fun_induction readString line gs with
  | case1 => exact List.suffix_rfl
  | case2 => exact List.suffix_rfl
  | case3 line g gs _ ih => exact ih.trans (List.suffix_cons g gs)

theorem readComment_suffix (line inner : Nat) (gs : List Grapheme) :
    (readComment line inner gs).1.rest <:+ gs := by
  fun_induction readComment line inner gs with
  | case1 => exact List.suffix_rfl
  | case2 => exact List.nil_suffix
  | case3 line inner g h gs _ s depth heq ih =>
    rw [heq] at ih
    exact ih.trans (List.suffix_append [g, h] gs)
  | case4 line g h gs => exact List.suffix_append [g, h] gs
  | case5 line g h gs _ _ inner s depth heq ih =>
    rw [heq] at ih
    exact ih.trans (List.suffix_append [g, h] gs)
  | case6 line inner g h gs _ _ s depth heq ih =>
    rw [heq] at ih
    exact ih.trans (List.suffix_cons g (h :: gs))

theorem stepSlash_suffix (line : Nat) (g : Grapheme) (gs : List Grapheme) :
    (stepSlash line g gs).rest <:+ gs := by
  cases gs with
  | nil => exact List.suffix_rfl
  | cons h rest =>
    rw [stepSlash]
    split
    · exact (List.dropWhile_suffix _).trans (List.suffix_cons h rest)
    · split
      · exact (readComment_suffix line 0 rest).trans (List.suffix_cons h rest)
      · exact List.suffix_rfl

theorem stepString_suffix (line position : Nat) (g : Grapheme) (gs : List Grapheme) :
    (stepString line position g gs).rest <:+ gs := by
  have hsuffix := readString_suffix line gs
  rw [stepString]
  split
  · exact List.nil_suffix
  · rename_i quote rest heq
    rw [heq] at hsuffix
    exact (List.suffix_cons quote rest).trans hsuffix

theorem stepName_rest (line : Nat) (lexeme rest : List Grapheme) :
    (stepName line lexeme rest).rest = rest := by
  rw [stepName]
  split <;> rfl

theorem step_suffix (line position : Nat) (g : Grapheme) (gs : List Grapheme) :
    (step line position g gs).rest <:+ gs := by
  unfold step
  split
  · exact List.suffix_rfl
  split
  · exact List.suffix_rfl
  · split
    · exact List.suffix_cons _ _
    · exact List.suffix_rfl
  · split
    · exact stepSlash_suffix line g _
    repeat' split
    · exact List.suffix_rfl
    · exact List.suffix_rfl
    · exact stepString_suffix line position g _
    · exact ⟨_, Segment.splitNumber_append false _⟩
    · rw [stepName_rest]
      exact List.dropWhile_suffix _
    · exact List.suffix_rfl

def run (line position : Nat) : List Grapheme → Scan
  | [] => ⟨[.token (.eof line)], [], line, position⟩
  | g :: gs =>
    let s := step line position g gs
    let scan := run s.line (position + s.lexeme.length) s.rest
    { scan with
      items := s.item?.toList ++ scan.items
      warnings := s.warning?.toList ++ scan.warnings }
termination_by gs => gs.length
decreasing_by exact Nat.lt_succ_of_le (step_suffix line position g gs).length_le

end Scanner

namespace Scan

def ofGraphemes (gs : List Grapheme) : Scan := Scanner.run 1 0 gs

def ofString (source : String) : Scan := ofGraphemes (Grapheme.ofString source)

def tokens (s : Scan) : List Token := s.items.filterMap ScanItem.token?

def errors (s : Scan) : List LexicalError := s.items.filterMap ScanItem.error?

def hasErrors (s : Scan) : Bool := !s.errors.isEmpty

def hasWarnings (s : Scan) : Bool := !s.warnings.isEmpty

end Scan

/-- The tokens of a source without lexical errors, or the first error. -/
def tokenize (source : String) : Except LexicalError (List Token) :=
  let scan := Scan.ofString source
  match scan.errors with
  | [] => .ok scan.tokens
  | e :: _ => .error e

end Lox
