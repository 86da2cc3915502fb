import Lox.Value

/-!
# Tokens

A token has a kind, the exact text it was read from, a payload for literals and identifiers, and the
line it starts on.  The tables pair the fixed kinds with their texts: one character, one character
with an optional `=`, or a reserved word.
-/

namespace Lox

inductive Keyword
  | andWord | classWord | elseWord | falseWord | funWord | forWord | ifWord | nilWord
  | orWord | printWord | returnWord | superWord | thisWord | trueWord | varWord | whileWord
deriving DecidableEq, Repr

namespace Keyword

def all : List Keyword := [
  andWord, classWord, elseWord, falseWord, funWord, forWord, ifWord, nilWord,
  orWord, printWord, returnWord, superWord, thisWord, trueWord, varWord, whileWord]

def spelling : Keyword → String
  | andWord => "and"
  | classWord => "class"
  | elseWord => "else"
  | falseWord => "false"
  | funWord => "fun"
  | forWord => "for"
  | ifWord => "if"
  | nilWord => "nil"
  | orWord => "or"
  | printWord => "print"
  | returnWord => "return"
  | superWord => "super"
  | thisWord => "this"
  | trueWord => "true"
  | varWord => "var"
  | whileWord => "while"

def label : Keyword → String
  | andWord => "AND"
  | classWord => "CLASS"
  | elseWord => "ELSE"
  | falseWord => "FALSE"
  | funWord => "FUN"
  | forWord => "FOR"
  | ifWord => "IF"
  | nilWord => "NIL"
  | orWord => "OR"
  | printWord => "PRINT"
  | returnWord => "RETURN"
  | superWord => "SUPER"
  | thisWord => "THIS"
  | trueWord => "TRUE"
  | varWord => "VAR"
  | whileWord => "WHILE"

def ofSpelling? (s : String) : Option Keyword := all.find? (·.spelling = s)

def beginsStatement : Keyword → Bool
  | classWord | funWord | varWord | forWord | ifWord | whileWord | printWord | returnWord => true
  | _ => false

end Keyword

inductive Kind
  | leftParen | rightParen | leftBrace | rightBrace | comma | dot | minus | plus | semicolon
  | slash | star | question | colon
  | bang | bangEqual | equal | equalEqual | greater | greaterEqual | less | lessEqual
  | identifier | string | number
  | keyword (word : Keyword)
  | eof
deriving DecidableEq, Repr

namespace Kind

def all : List Kind := [
  leftParen, rightParen, leftBrace, rightBrace, comma, dot, minus, plus, semicolon,
  slash, star, question, colon,
  bang, bangEqual, equal, equalEqual, greater, greaterEqual, less, lessEqual,
  identifier, string, number] ++ Keyword.all.map keyword ++ [eof]

def label : Kind → String
  | leftParen => "LEFT_PAREN"
  | rightParen => "RIGHT_PAREN"
  | leftBrace => "LEFT_BRACE"
  | rightBrace => "RIGHT_BRACE"
  | comma => "COMMA"
  | dot => "DOT"
  | minus => "MINUS"
  | plus => "PLUS"
  | semicolon => "SEMICOLON"
  | slash => "SLASH"
  | star => "STAR"
  | question => "QUESTION"
  | colon => "COLON"
  | bang => "BANG"
  | bangEqual => "BANG_EQUAL"
  | equal => "EQUAL"
  | equalEqual => "EQUAL_EQUAL"
  | greater => "GREATER"
  | greaterEqual => "GREATER_EQUAL"
  | less => "LESS"
  | lessEqual => "LESS_EQUAL"
  | identifier => "IDENTIFIER"
  | string => "STRING"
  | number => "NUMBER"
  | keyword word => word.label
  | eof => "EOF"

def ofLabel? (s : String) : Option Kind := all.find? (·.label = s)

/-- The characters that are a token each. -/
def singles : List (Char × Kind) := [
  ('(', leftParen), (')', rightParen), ('\x7b', leftBrace), ('\x7d', rightBrace), (',', comma),
  ('.', dot), ('-', minus), ('+', plus), (';', semicolon), ('*', star), ('?', question),
  (':', colon)]

/-- The characters that are a token each and another one together with `=`. -/
def pairs : List (Char × Kind × Kind) := [
  ('!', bang, bangEqual), ('=', equal, equalEqual), ('<', less, lessEqual),
  ('>', greater, greaterEqual)]

def single? (c : Char) : Option Kind := List.lookup c singles

/-- The kinds of a character without and with a following `=`. -/
def pair? (c : Char) : Option (Kind × Kind) := List.lookup c pairs

def isKeyword : Kind → Bool
  | keyword _ => true
  | _ => false

def beginsStatement : Kind → Bool
  | keyword word => word.beginsStatement
  | _ => false

end Kind

structure Token where
  kind : Kind
  lexeme : String
  literal : Value
  line : Int
deriving DecidableEq

namespace Token

def eof (line : Int) : Token := ⟨.eof, "", .nil, line⟩

/-- The kind of a token with its quoted lexeme, and its payload if it has one. -/
def describe (t : Token) : String :=
  match t.literal with
  | .nil => t.kind.label ++ "(" ++ Text.quoted t.lexeme ++ ")"
  | v => t.kind.label ++ "(" ++ Text.quoted t.lexeme ++ " -> " ++ v.display ++ ")"

end Token

end Lox
