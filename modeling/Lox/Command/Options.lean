import Lox.Text.Integer
import Lox.Text.Quoted

/-!
# Command-line options

`Options.ofArguments` reads the arguments of the command.  An option with a value takes it after an
equals sign or from the next argument, the last value given counts, single-letter options may share
a dash, and a double dash ends the options.  A fault in the form of an option is found here; whether
a value makes sense is a later question.
-/

namespace Lox

inductive OptionName
  | printTree | verbose | maxDepth | strictComparisons | prompt | version | help
deriving DecidableEq, Repr

namespace OptionName

def long? : String → Option OptionName
  | "--print-ast" => some printTree
  | "--verbose" => some verbose
  | "--max-depth" => some maxDepth
  | "--strict-comparisons" => some strictComparisons
  | "--prompt" => some prompt
  | "--version" => some version
  | "--help" => some help
  | _ => none

def short? : Char → Option OptionName
  | 'v' => some verbose
  | 'h' => some help
  | _ => none

def takesValue : OptionName → Bool
  | maxDepth | prompt => true
  | _ => false

end OptionName

inductive UsageError
  | noSuchOption (name : String)
  | missingValue (name : String)
  | unwantedValue (name : String)
  | notAnInteger (text : String)
  | outOfRange (n : Int)
  | scriptIsDirectory (path : String)
  | extraArguments (arguments : List String)
deriving DecidableEq, Repr

namespace UsageError

def message : UsageError → String
  | noSuchOption name => "No such option " ++ Text.quoted name ++ "."
  | missingValue name => "Option " ++ Text.quoted name ++ " requires an argument."
  | unwantedValue name => "Option " ++ Text.quoted name ++ " does not take a value."
  | notAnInteger text =>
    "Invalid value for '--max-depth': " ++ Text.quoted text ++ " is not a valid integer range."
  | outOfRange n =>
    "Invalid value for '--max-depth': " ++ toString n ++ " is not in the range x>=1."
  | scriptIsDirectory path =>
    "Invalid value for '[SCRIPT]': File " ++ Text.quoted path ++ " is a directory."
  | extraArguments arguments =>
    "Got unexpected extra argument" ++ (if arguments.length = 1 then "" else "s") ++ " (" ++
      " ".intercalate arguments ++ ")"

def showsUsage : UsageError → Bool
  | missingValue _ | unwantedValue _ => false
  | _ => true

end UsageError

/-- What a user can ask to be told instead of running anything. -/
inductive Notice
  | help | version
deriving DecidableEq, Repr

/-- The options of a command line, values as they were written. -/
structure Options where
  printTree : Bool := false
  verbose : Bool := false
  maxDepth : Option String := none
  strictComparisons : Bool := false
  prompt : Option String := none
  /-- The first notice asked for. -/
  notice : Option Notice := none
  arguments : List String := []
deriving DecidableEq, Repr

namespace Options

/-- Sets an option; only options with a value look at `value`. -/
def set (o : Options) (value : String) : OptionName → Options
  | .printTree => { o with printTree := true }
  | .verbose => { o with verbose := true }
  | .maxDepth => { o with maxDepth := some value }
  | .strictComparisons => { o with strictComparisons := true }
  | .prompt => { o with prompt := some value }
  | .version => { o with notice := o.notice <|> some .version }
  | .help => { o with notice := o.notice <|> some .help }

/-- Sets the single-letter options that share a dash. -/
def setShort (o : Options) : List Char → Except UsageError Options
  | [] => .ok o
  | c :: cs =>
    match OptionName.short? c with
    | some name => (o.set "" name).setShort cs
    | none => .error (.noSuchOption (String.ofList ['-', c]))

/-- An argument up to its first equals sign, and what follows that sign. -/
def splitValue (argument : String) : String × Option String :=
  let cs := argument.toList
  let name := String.ofList (cs.takeWhile (· ≠ '='))
  match cs.dropWhile (· ≠ '=') with
  | [] => (name, none)
  | _ :: value => (name, some (String.ofList value))

def isOption (argument : String) : Bool :=
  match argument.toList with
  | '-' :: _ :: _ => true
  | _ => false

/-- Reads arguments after those that gave the options `o`. -/
def read (o : Options) : List String → Except UsageError Options
  | [] => .ok o
  | argument :: rest =>
    if argument = "--" then .ok { o with arguments := o.arguments ++ rest }
    else if isOption argument then
      let (name, value) := splitValue argument
      match OptionName.long? name, value, rest with
      | some option, some value, rest =>
        if option.takesValue then read (o.set value option) rest else .error (.unwantedValue name)
      | some option, none, [] =>
        if option.takesValue then .error (.missingValue name) else .ok (o.set "" option)
      | some option, none, next :: rest =>
        if option.takesValue then read (o.set next option) rest
        else read (o.set "" option) (next :: rest)
      | none, _, rest =>
        if argument.startsWith "--" then .error (.noSuchOption name)
        else
          match o.setShort (argument.toList.drop 1) with
          | .ok o => read o rest
          | .error e => .error e
    else read { o with arguments := o.arguments ++ [argument] } rest

def ofArguments (arguments : List String) : Except UsageError Options :=
  read { } arguments

def depthLimit (o : Options) (default : Int) : Except UsageError Int :=
  match o.maxDepth with
  | none => .ok default
  | some text =>
    match Text.integer? text with
    | none => .error (.notAnInteger text)
    | some n => if n < 1 then .error (.outOfRange n) else .ok n

end Options

end Lox
