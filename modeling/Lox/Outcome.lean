import Lox.Eval
import Lox.Expr.Parser
import Lox.Expr.Printer
import Lox.Log
import Lox.Scan

/-!
# Running a source text

`run` takes one source text through all stages.  Lexical errors are reported and dropped, and the
remaining tokens still go on; a parse error ends the run before evaluation.  The `Outcome` holds the
lines to show, the value or the faults, and the log.

`parseSource` is the way for callers who want a tree or the first fault, and nothing shown.
-/

namespace Lox

/-- Why a source text has no tree. -/
inductive SourceError
  | lexical (e : LexicalError)
  | parse (e : ParseError)
deriving DecidableEq

def parseSource (config : Config) (source : String) : Except SourceError Expr :=
  match tokenize source with
  | .error e => .error (.lexical e)
  | .ok tokens =>
    match parseTokens tokens config.maxNestingDepth with
    | .error e => .error (.parse e)
    | .ok tree => .ok tree

inductive ExitStatus
  | success | dataError | softwareError | inputError
deriving DecidableEq, Repr

def ExitStatus.code : ExitStatus → Nat
  | success => 0
  | dataError => 65
  | softwareError => 70
  | inputError => 74

/-- What a run shows and finds. -/
structure Outcome where
  shown : List String
  value : Value
  lexicalErrors : List LexicalError
  parseError : Option ParseError
  runtimeError : Option RuntimeError
  log : List LogEntry
deriving DecidableEq

namespace Outcome

def hasErrors (o : Outcome) : Bool :=
  !o.lexicalErrors.isEmpty || o.parseError.isSome || o.runtimeError.isSome

def status (o : Outcome) : ExitStatus :=
  if !o.lexicalErrors.isEmpty || o.parseError.isSome then .dataError
  else if o.runtimeError.isSome then .softwareError
  else .success

end Outcome

def Scan.logEntry (s : Scan) : LogEntry :=
  ⟨.debug, .scanner, "Scanned " ++ toString s.position ++ " graphemes into " ++
    toString s.tokens.length ++ " tokens (" ++ toString s.errors.length ++ " errors, " ++
    toString s.warnings.length ++ " warnings)"⟩

def LexicalWarning.logEntry (w : LexicalWarning) : LogEntry :=
  ⟨.warning, .runner, w.message ++ " (" ++ LexicalWarning.code ++ ")"⟩

def parsedEntry (tokens : List Token) (tree : Expr) : LogEntry :=
  ⟨.debug, .parser, "Parsed " ++ toString tokens.length ++ " tokens into " ++ tree.label⟩

def evaluatedEntry (tree : Expr) (v : Value) : LogEntry :=
  ⟨.debug, .evaluator, "Evaluated " ++ tree.label ++ " to " ++ v.display⟩

/-- Takes what a scan found through the other stages; the tree is shown on request. -/
def Scan.run (config : Config) (showTree : Bool) (scan : Scan) : Outcome :=
  let reports := scan.errors.map LexicalError.report
  let notes := scan.logEntry :: scan.warnings.map LexicalWarning.logEntry
  match parseTokens scan.tokens config.maxNestingDepth with
  | .error e =>
    { shown := reports ++ [e.report], value := .nil, lexicalErrors := scan.errors,
      parseError := some e, runtimeError := none, log := notes }
  | .ok tree =>
    let shown := reports ++ (if showTree then [tree.render] else [])
    let notes := notes ++ [parsedEntry scan.tokens tree]
    match evaluate config tree with
    | .error e =>
      { shown := shown ++ [e.report], value := .nil, lexicalErrors := scan.errors,
        parseError := none, runtimeError := some e, log := notes }
    | .ok v =>
      { shown := shown ++ [v.display], value := v, lexicalErrors := scan.errors,
        parseError := none, runtimeError := none, log := notes ++ [evaluatedEntry tree v] }

def run (config : Config) (showTree : Bool) (source : String) : Outcome :=
  (Scan.ofString source).run config showTree

end Lox
