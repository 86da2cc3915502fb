import Lox.Command.Options
import Lox.Script
import Lox.Session
import Lox.Text.ControlSequence

/-!
# The command

The command runs a script, or an interactive session when no script is named.  A command line is
settled in this order: faults in the form of an option, then the notices for help and version, then
the values of the options and the script, then arguments left over.

`Command.execute` is the whole command as a function of the files it can see, its arguments and its
input.
-/

namespace Lox

structure Output where
  exitCode : Nat
  stdout : String
  stderr : String
deriving DecidableEq, Repr

inductive Plan
  | refuse (e : UsageError)
  | notify (n : Notice)
  | script (config : Config) (printTree verbose : Bool) (path : String)
  | session (config : Config) (verbose : Bool)

namespace Command

def versionText : String := "loxpy, version 0.1.0\n"

def usageText : String := "Usage: loxpy [OPTIONS] [SCRIPT]\n"

def helpText : String :=
  usageText ++
  "\n" ++
  "  Run a Lox expression SCRIPT, or start an interactive session.\n" ++
  "\n" ++
  "Options:\n" ++
  "  --print-ast                Print the parsed expression tree before evaluating\n" ++
  "  -v, --verbose              Show debug logging on stderr\n" ++
  "  --max-depth INTEGER RANGE  Deepest allowed expression nesting  [default: 48;\n" ++
  "                             x>=1]\n" ++
  "  --strict-comparisons       Make <, <=, > and >= raise on non-number operands\n" ++
  "                             instead of returning false\n" ++
  "  --prompt TEXT              Interactive prompt text  [default: lox > ]\n" ++
  "  --version                  Show the version and exit.\n" ++
  "  -h, --help                 Show this message and exit.\n"

def noticeText : Notice → String
  | .help => helpText
  | .version => versionText

def usageErrorText (e : UsageError) : String :=
  (if e.showsUsage then usageText ++ "Try 'loxpy --help' for help.\n\n" else "") ++
    "Error: " ++ e.message ++ "\n"

def configOf (o : Options) (limit : Int) : Config :=
  let standard : Config := { }
  { standard with
    maxNestingDepth := limit
    strictComparisons := o.strictComparisons
    prompt := o.prompt.getD standard.prompt }

/-- Settles the values of the options and the script, and what is left over. -/
def planOf (find : String → Except LoadFault FileEntry) (o : Options) : Except UsageError Plan := do
  let standard : Config := { }
  let limit ← o.depthLimit standard.maxNestingDepth
  let config := configOf o limit
  match o.arguments with
  | [] => return .session config o.verbose
  | path :: extra =>
    if let .ok .directory := find path then throw (.scriptIsDirectory path)
    unless extra.isEmpty do throw (.extraArguments extra)
    return .script config o.printTree o.verbose path

/-- What a command line asks for, given what its paths lead to. -/
def plan (find : String → Except LoadFault FileEntry) (arguments : List String) : Plan :=
  match Options.ofArguments arguments with
  | .error e => .refuse e
  | .ok o =>
    match o.notice with
    | some n => .notify n
    | none =>
      match planOf find o with
      | .error e => .refuse e
      | .ok p => p

def scriptPath? (arguments : List String) : Option String :=
  match Options.ofArguments arguments with
  | .error _ => none
  | .ok o => o.arguments.head?

def padRight (width : Nat) (s : String) : String :=
  s ++ String.ofList (List.replicate (width - s.length) ' ')

/-- The lines of the log that a user gets to see, each filled up to the width of the terminal. -/
def logText (verbose : Bool) (log : List LogEntry) : String :=
  String.join <| (log.filter fun entry => verbose || entry.level = .warning).map fun entry =>
    padRight 80 (padRight 8 entry.level.name ++ " " ++ entry.message) ++ "\n"

def scriptOutput (verbose : Bool) : Except LoadError Outcome → Output
  | .error e => ⟨ExitStatus.inputError.code, "", Text.plain (e.message ++ "\n")⟩
  | .ok outcome =>
    ⟨outcome.status.code, String.join (outcome.shown.map fun s => Text.plain (s ++ "\n")),
      logText verbose outcome.log⟩

def sessionOutput (verbose : Bool) (s : Session) : Output :=
  ⟨ExitStatus.success.code, String.join (s.transcript.map fun (text, _) => Text.plain text),
    logText verbose s.log⟩

def perform (find : String → Except LoadFault FileEntry) (stdin : String) : Plan → Output
  | .refuse e => ⟨2, "", Text.plain (usageErrorText e)⟩
  | .notify n => ⟨0, noticeText n, ""⟩
  | .script config printTree verbose path =>
    scriptOutput verbose (runScript find config printTree path)
  | .session config verbose =>
    let input := (Text.lines stdin).map some ++ [none]
    sessionOutput verbose ((Session.new config input true).deliverAll.settle none)

/-- The command as a function of the files, its arguments and its input. -/
def execute (find : String → Except LoadFault FileEntry) (arguments : List String)
    (stdin : String) : Output :=
  perform find stdin (plan find arguments)

end Command

end Lox
