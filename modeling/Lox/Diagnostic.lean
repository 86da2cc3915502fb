/-!
# Diagnostics

Every stage describes its faults the same way: a severity, a message, a line, a code, and perhaps a
hint.
-/

namespace Lox

inductive Severity
  | error | warning
deriving DecidableEq, Repr

namespace Severity

def name : Severity → String
  | error => "error"
  | warning => "warning"

def heading : Severity → String
  | error => "ERROR"
  | warning => "WARNING"

end Severity

structure Diagnostic where
  severity : Severity
  message : String
  line : Int
  code : String
  help : Option String
deriving DecidableEq, Repr

namespace Diagnostic

/-- The message, the place and the hint, a line each. -/
def text (d : Diagnostic) : String :=
  d.severity.heading ++ ": " ++ d.message ++ "\n  --> line " ++ toString d.line ++ "\n" ++
    (match d.help with
      | some help => "  help: " ++ help ++ "\n"
      | none => "")

end Diagnostic

/-- The one-line report of a fault that belongs to a source line. -/
def lineReport (line : Int) (message : String) : String :=
  "Error on line " ++ toString line ++ ": " ++ message

end Lox
