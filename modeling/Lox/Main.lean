import Lox.Command

/-!
# The program

The command on real files and a real terminal.  All it decides is in `Command` and `Session`; here
bytes are read and texts are written.
-/

namespace Lox

/-- The fault behind an error of the system.  Opening a file fails with its name, and then the type
at fault is that of a name along the path; reading a directory fails without one. -/
def faultOf : IO.Error → LoadFault
  | .noFileOrDirectory _ _ _ => .notFound
  | .inappropriateType none _ _ => .isDirectory
  | .inappropriateType (some _) _ _ => .notDirectory
  | .invalidArgument _ _ _ => .nameTooLong
  | .permissionDenied _ _ details => .refused details
  | e => .refused (toString e)

def readEntry (path : String) : IO (Except LoadFault FileEntry) := do
  try
    return .ok (.file (← IO.FS.readBinFile path))
  catch e =>
    match faultOf e with
    | .isDirectory => return .ok .directory
    | fault => return .error fault

/-- Writes what a session has added since it had shown `shown` texts and noted `noted` entries. -/
def writeNews (verbose : Bool) (shown noted : Nat) (s : Session) : IO Unit := do
  let news := Command.sessionOutput verbose
    { s with transcript := s.transcript.drop shown, log := s.log.drop noted }
  IO.eprint news.stderr
  IO.print news.stdout
  (← IO.getStdout).flush

/-- Runs a session on standard input until it ends. -/
partial def converse (verbose : Bool) (shown noted : Nat) (s : Session) : IO Unit := do
  let s := s.settle none
  writeNews verbose shown noted s
  unless s.todo.isEmpty do
    let line ← (← IO.getStdin).getLine
    let input := if line.isEmpty then [none] else (Text.lines line).map some
    converse verbose s.transcript.length s.log.length { s with unread := input }.deliverAll

/-- Runs a script, or a session if none is named. -/
def program (arguments : List String) : IO UInt32 := do
  let entry ← match Command.scriptPath? arguments with
    | some path => readEntry path
    | none => pure (.error .notFound)
  let find := fun _ => entry
  match Command.plan find arguments with
  | .session config verbose =>
    converse verbose 0 0 (Session.new config [] false)
    return 0
  | plan =>
    let output := Command.perform find "" plan
    IO.print output.stdout
    IO.eprint output.stderr
    return output.exitCode.toUInt32

end Lox

def main (arguments : List String) : IO UInt32 := Lox.program arguments
