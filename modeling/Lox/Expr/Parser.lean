import Lox.Diagnostic
import Lox.Expr

/-!
# From tokens to expressions

The grammar, loosest rule first:

    expression  comma
    comma       ternary ( "," ternary )*
    ternary     equality ( "?" expression ":" expression )?
    equality    comparison ( ( "!=" | "==" ) comparison )*
    comparison  term ( ( ">" | ">=" | "<" | "<=" ) term )*
    term        factor ( ( "-" | "+" ) factor )*
    factor      unary ( ( "/" | "*" ) unary )*
    unary       ( "!" | "-" ) unary | primary
    primary     NUMBER | STRING | "true" | "false" | "nil" | "(" expression ")"

Chains of operators lean to the left; the branches of `?:` are whole expressions, so it leans to the
right and takes in any comma that follows it.

Groupings, branches and prefix operators nest, and a limit bounds how deep.  `Rule.read` recurses on
the number of levels still allowed, so the limit of the language is also the reason why reading
ends; within a level only chains repeat, and each repetition takes a token.

A reader that fails names the token it could not take, and it keeps its place in front of that
token.
-/

namespace Lox

/-- Why tokens are no expression. -/
inductive ParseFault
  | expectedExpression
  | expectedCloseParen
  | expectedColon
  | trailingTokens
  | nestedTooDeeply (limit : Int)
deriving DecidableEq, Repr

/-- A fault at the token where reading stopped. -/
structure ParseError where
  fault : ParseFault
  token : Token
deriving DecidableEq

def parseCodes : List (String × String) := [
  ("P001", "Expected expression"),
  ("P002", "Expected token not found"),
  ("P003", "Unexpected token after expression"),
  ("P004", "Expression nesting too deep")]

namespace ParseError

def code (e : ParseError) : String :=
  match e.fault with
  | .expectedExpression => "P001"
  | .expectedCloseParen | .expectedColon => "P002"
  | .trailingTokens => "P003"
  | .nestedTooDeeply _ => "P004"

def message (e : ParseError) : String :=
  match e.fault with
  | .expectedExpression => "Expect expression."
  | .expectedCloseParen => "Expect ')' after expression."
  | .expectedColon => "Expect ':' after then branch."
  | .trailingTokens => "Expect end of expression."
  | .nestedTooDeeply _ => "Expression nesting too deep."

def help? (e : ParseError) : Option String :=
  match e.fault with
  | .expectedExpression =>
    some <|
      if e.token.kind = .eof then "The input ended where an operand was expected."
      else if e.token.kind.isKeyword then
        "'" ++ e.token.lexeme ++ "' is a reserved word and cannot start an expression."
      else "'" ++ e.token.lexeme ++ "' cannot start an expression."
  | .expectedCloseParen | .expectedColon => none
  | .trailingTokens =>
    some ("Unexpected '" ++ e.token.lexeme ++ "' after a complete expression.")
  | .nestedTooDeeply limit =>
    some ("Groupings and prefix operators may nest at most " ++ toString limit ++ " levels.")

def diagnostic (e : ParseError) : Diagnostic := ⟨.error, e.message, e.token.line, e.code, e.help?⟩

def report (e : ParseError) : String := lineReport e.token.line e.message

end ParseError

/-- The levels of binary operators, loosest first. -/
inductive Level
  | comma | equality | comparison | term | factor
deriving DecidableEq, Repr

def Level.has : Level → Kind → Bool
  | comma, .comma => true
  | equality, .bangEqual | equality, .equalEqual => true
  | comparison, .greater | comparison, .greaterEqual => true
  | comparison, .less | comparison, .lessEqual => true
  | term, .minus | term, .plus => true
  | factor, .slash | factor, .star => true
  | _, _ => false

def Kind.isPrefixOp : Kind → Bool
  | bang | minus => true
  | _ => false

def Token.value? (t : Token) : Option Value :=
  match t.kind with
  | .keyword .falseWord => some (.boolean false)
  | .keyword .trueWord => some (.boolean true)
  | .keyword .nilWord => some .nil
  | .number | .string => some t.literal
  | _ => none

/-- The place of a reader: the tokens ahead and how many levels are open. -/
structure Cursor where
  rest : List Token
  depth : Nat
deriving DecidableEq

/-- A fault and the token ahead where it was found, if there was one. -/
structure Refusal where
  fault : ParseFault
  token? : Option Token
deriving DecidableEq

/-- Readers take tokens off the cursor and may fail; the cursor outlives a failure. -/
abbrev Reader := EStateM Refusal Cursor

namespace Reader

def refuse {α : Type} (fault : ParseFault) : Reader α := fun c =>
  .error ⟨fault, c.rest.head?⟩ c

/-- Takes the next token if it means something to the caller. -/
def next? {α : Type} (meaning : Token → Option α) : Reader (Option α) := fun c =>
  match c.rest with
  | [] => .ok none c
  | t :: ts =>
    match meaning t with
    | some a => .ok (some a) { c with rest := ts }
    | none => .ok none c

def accept (fits : Kind → Bool) : Reader (Option Token) :=
  next? fun t => if fits t.kind then some t else none

/-- Takes a token of one kind, or fails with the fault given. -/
def expect (kind : Kind) (fault : ParseFault) : Reader Unit := do
  match ← accept (· = kind) with
  | some _ => pure ()
  | none => refuse fault

/-- One level deeper, for as long as the reader runs. -/
def nested {α : Type} (inner : Reader α) : Reader α := fun c =>
  match inner { c with depth := c.depth + 1 } with
  | .ok a c => .ok a { c with depth := c.depth - 1 }
  | .error refusal c => .error refusal { c with depth := c.depth - 1 }

/-- Continues a chain after its operand `left`, by at most `bound` links. -/
def chainFrom (level : Level) (operand : Reader Expr) : (bound : Nat) → (left : Expr) → Reader Expr
  | 0, left => pure left
  | bound + 1, left => do
    match ← accept level.has with
    | none => pure left
    | some op => chainFrom level operand bound (.binary left op (← operand))

/-- A chain of operands with the operators of a level between them.  A link takes a token, so there
are no more links than tokens ahead. -/
def chain (level : Level) (operand : Reader Expr) : Reader Expr := do
  let left ← operand
  chainFrom level operand (← get).rest.length left

def primary (expression : Reader Expr) : Reader Expr := do
  match ← next? Token.value? with
  | some v => pure (.literal v)
  | none =>
    match ← accept (· = .leftParen) with
    | some _ =>
      let inner ← expression
      expect .rightParen .expectedCloseParen
      pure (.grouping inner)
    | none => refuse .expectedExpression

def unary (expression operand : Reader Expr) : Reader Expr := do
  match ← accept Kind.isPrefixOp with
  | some op => pure (.unary op (← operand))
  | none => primary expression

def equality (operand : Reader Expr) : Reader Expr :=
  chain .equality (chain .comparison (chain .term (chain .factor operand)))

def ternary (expression condition : Reader Expr) : Reader Expr := do
  let c ← condition
  match ← accept (· = .question) with
  | none => pure c
  | some _ =>
    let a ← expression
    expect .colon .expectedColon
    let b ← expression
    pure (.ternary c a b)

/-- A whole expression, given readers for the expressions and operands nested in it. -/
def comma (expression operand : Reader Expr) : Reader Expr :=
  chain .comma (ternary expression (equality (unary expression operand)))

end Reader

/-- The two rules that open a level. -/
inductive Rule
  | expression
  | operand
deriving DecidableEq, Repr

namespace Rule

open Reader

/-- Reads by a rule with `room` levels left under a limit. -/
def read (limit : Int) : (room : Nat) → Rule → Reader Expr
  | 0, _ => refuse (.nestedTooDeeply limit)
  | room + 1, .expression => nested (comma (read limit room .expression) (read limit room .operand))
  | room + 1, .operand => nested (unary (read limit room .expression) (read limit room .operand))

end Rule

/-- A reader over a list of tokens, which may lack an end or hold several. -/
structure Parser where
  tokens : List Token
  limit : Int
  current : Nat
  depth : Nat
deriving DecidableEq

namespace Parser

def new (tokens : List Token) (limit : Int) : Parser := ⟨tokens, limit, 0, 0⟩

/-- An end of input on the line of the last token, for tokens that lack one. -/
def endToken (p : Parser) : Token := .eof ((p.tokens.getLast?.map Token.line).getD 1)

def peek (p : Parser) : Token := p.tokens[p.current]?.getD p.endToken

def toEnd (limit : Int) : Reader Expr := do
  let cursor ← get
  let e ← Rule.read limit (limit - cursor.depth).toNat .expression
  match (← get).rest.head? with
  | none => pure e
  | some t => if t.kind = .eof then pure e else Reader.refuse .trailingTokens

def moveTo (p : Parser) (c : Cursor) : Parser :=
  { p with current := p.current + ((p.tokens.drop p.current).length - c.rest.length)
           depth := c.depth }

def parse (p : Parser) : Except ParseError Expr × Parser :=
  match toEnd p.limit ⟨p.tokens.drop p.current, p.depth⟩ with
  | .ok e c => (.ok e, p.moveTo c)
  | .error refusal c =>
    (.error ⟨refusal.fault, refusal.token?.getD p.endToken⟩, p.moveTo c)

end Parser

/-! ### Statement boundaries -/

/-- The token at a position; negative positions count back from the end. -/
def tokenAt? (tokens : List Token) (position : Int) : Option Token :=
  if 0 ≤ position then tokens[position.toNat]?
  else if -tokens.length ≤ position then tokens[(position + tokens.length).toNat]?
  else none

/-- The first statement boundary from a position on: the end of input, a place after a semicolon, or
a word that begins a statement.  There is none if a position before the first token is asked for. -/
def boundaryFrom? (tokens : List Token) (position : Int) : Option Int :=
  if position < tokens.length then do
    let t ← tokenAt? tokens position
    if t.kind = .eof then return position
    let previous ← tokenAt? tokens (position - 1)
    if previous.kind = .semicolon then return position
    if t.kind.beginsStatement then return position
    boundaryFrom? tokens (position + 1)
  else some position
termination_by (tokens.length - position).toNat

/-- Where to resume after a fault at a position. -/
def synchronize? (tokens : List Token) (position : Int) : Option Int :=
  boundaryFrom? tokens (position + 1)

/-- Moves a parser past the current token to the next statement boundary. -/
def Parser.synchronize (p : Parser) : Parser :=
  { p with current := ((synchronize? p.tokens p.current).getD (p.current + 1)).toNat }

def parseTokens (tokens : List Token) (limit : Int) : Except ParseError Expr :=
  (Parser.new tokens limit).parse.1

end Lox
