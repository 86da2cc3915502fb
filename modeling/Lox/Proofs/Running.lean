import Lox.Outcome

/-!
# How a run ends

A run ends in one of three ways: with a parse error, with a runtime error, or with a value.
`Outcome.Ended` lists them, each with what was parsed and evaluated and with what the outcome then
holds.  Every run has one of these ends (`ended_run`), and whatever is proved of outcomes starts
from here; nothing else looks into `Scan.run`.
-/

namespace Lox

/-- **The ends of a run**, of what a scan has found. -/
inductive Outcome.Ended (config : Config) (showTree : Bool) (scan : Scan) (o : Outcome) : Prop
  | parseError (e : ParseError) :
      parseTokens scan.tokens config.maxNestingDepth = .error e →
      o.parseError = some e → o.runtimeError = none → o.value = .nil →
      o.shown = scan.errors.map LexicalError.report ++ [e.report] → Ended config showTree scan o
  | runtimeError (tree : Expr) (fault : RuntimeError) :
      parseTokens scan.tokens config.maxNestingDepth = .ok tree →
      evaluate config tree = .error fault →
      o.parseError = none → o.runtimeError = some fault → o.value = .nil →
      o.shown = scan.errors.map LexicalError.report ++
        (if showTree then [tree.render] else []) ++ [fault.report] → Ended config showTree scan o
  | value (tree : Expr) (v : Value) :
      parseTokens scan.tokens config.maxNestingDepth = .ok tree →
      evaluate config tree = .ok v →
      o.parseError = none → o.runtimeError = none → o.value = v →
      o.shown = scan.errors.map LexicalError.report ++
        (if showTree then [tree.render] else []) ++ [v.display] → Ended config showTree scan o

theorem ended_run (config : Config) (showTree : Bool) (scan : Scan) :
    (scan.run config showTree).Ended config showTree scan := by
  cases hparse : parseTokens scan.tokens config.maxNestingDepth with
  | error e =>
    simp only [Scan.run, hparse]
    exact .parseError e hparse rfl rfl rfl rfl
  | ok tree =>
    cases heval : evaluate config tree with
    | error fault =>
      simp only [Scan.run, hparse, heval]
      exact .runtimeError tree fault hparse heval rfl rfl rfl rfl
    | ok v =>
      simp only [Scan.run, hparse, heval]
      exact .value tree v hparse heval rfl rfl rfl rfl

/-- Whatever the end, the lexical errors are those of the scan. -/
theorem lexicalErrors_run (config : Config) (showTree : Bool) (scan : Scan) :
    (scan.run config showTree).lexicalErrors = scan.errors := by
  rw [Scan.run]
  repeat' split
  all_goals rfl

end Lox
