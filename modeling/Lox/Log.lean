/-!
# The log

What the stages note about their work.  Only warnings are shown unless a user asks for more.
-/

namespace Lox

inductive LogLevel
  | debug | warning
deriving DecidableEq, Repr

/-- The part of the program that notes something. -/
inductive Stage
  | scanner | parser | evaluator | runner | session
deriving DecidableEq, Repr

structure LogEntry where
  level : LogLevel
  stage : Stage
  message : String
deriving DecidableEq, Repr

def LogLevel.name : LogLevel → String
  | debug => "DEBUG"
  | warning => "WARNING"

end Lox
