import Lox.Outcome
import Lox.Text.Lines

/-!
# Scripts in files

A script is a file that holds UTF-8.  `FileTree` is the part of a file system that a run can see:
the files and directories below a working directory.  `FileTree.find` walks a path name by name, and
the first name that cannot be followed decides the fault.
-/

namespace Lox

inductive LoadFault
  | notFound | isDirectory | notDirectory | nameTooLong | notUtf8
  /-- Another refusal of the system, in its own words. -/
  | refused (reason : String)
deriving DecidableEq, Repr

structure LoadError where
  path : String
  fault : LoadFault
deriving DecidableEq, Repr

namespace LoadError

def reason (e : LoadError) : String :=
  match e.fault with
  | .notFound => "No such file or directory"
  | .isDirectory => "Is a directory"
  | .notDirectory => "Not a directory"
  | .nameTooLong => "File name too long"
  | .notUtf8 => "file is not valid UTF-8"
  | .refused reason => reason

def message (e : LoadError) : String := "Could not load '" ++ e.path ++ "': " ++ e.reason

end LoadError

inductive FileEntry
  | file (content : ByteArray)
  | directory

/-- Files and directories by their paths from a working directory. -/
structure FileTree where
  entries : List (List String × FileEntry)

namespace FileTree

/-- The names along a path, from `taken` in reverse; an empty one stands between two slashes. -/
def splitPath (taken : List Char) : List Char → List String
  | [] => [String.ofList taken.reverse]
  | c :: cs =>
    if c = '/' then String.ofList taken.reverse :: splitPath [] cs else splitPath (c :: taken) cs

def names (path : String) : List String := splitPath [] path.toList

def ofList (entries : List (String × FileEntry)) : FileTree :=
  ⟨entries.map fun (path, entry) => (names path, entry)⟩

/-- Steps that leave the tree: the root of the file system and parents of the working directory. -/
def isOutside (place : List String) : Bool := place.all fun name => name = "/" || name = ".."

/-- What is at a place, if anything: an entry, a directory that holds one, or a place outside. -/
def get? (t : FileTree) (place : List String) : Option FileEntry :=
  match List.lookup place t.entries with
  | some entry => some entry
  | none =>
    if isOutside place || t.entries.any fun (path, _) => place.isPrefixOf path then some .directory
    else none

def parent (place : List String) : List String :=
  if place = ["/"] then place
  else if isOutside place then place ++ [".."]
  else place.dropLast

def walk (t : FileTree) (place : List String) : List String → Except LoadFault FileEntry
  | [] =>
    match t.get? place with
    | some entry => .ok entry
    | none => .error .notFound
  | name :: rest =>
    match t.get? place with
    | none => .error .notFound
    | some (.file _) => .error .notDirectory
    | some .directory =>
      if name = "" ∨ name = "." then walk t place rest
      else if name = ".." then walk t (parent place) rest
      else if 255 < name.utf8ByteSize then .error .nameTooLong
      else walk t (place ++ [name]) rest

/-- What a path leads to.  The empty path leads nowhere, and a path has a largest length. -/
def find (t : FileTree) (path : String) : Except LoadFault FileEntry :=
  if path.isEmpty then .error .notFound
  else if 4096 ≤ path.utf8ByteSize then .error .nameTooLong
  else if path.startsWith "/" then walk t ["/"] (names path)
  else walk t [] (names path)

end FileTree

/-- The text of an entry: its bytes as UTF-8, with every line end a line feed. -/
def FileEntry.text : FileEntry → Except LoadFault String
  | directory => .error .isDirectory
  | file content =>
    match String.fromUTF8? content with
    | none => .error .notUtf8
    | some s => .ok (String.ofList (Text.unifyLineEnds s.toList))

def loadScript (find : String → Except LoadFault FileEntry) (path : String) :
    Except LoadError String :=
  match find path with
  | .error fault => .error ⟨path, fault⟩
  | .ok entry =>
    match entry.text with
    | .error fault => .error ⟨path, fault⟩
    | .ok source => .ok source

def runScript (find : String → Except LoadFault FileEntry) (config : Config) (showTree : Bool)
    (path : String) : Except LoadError Outcome := do
  let source ← loadScript find path
  let outcome := run config showTree source
  let note : LogEntry := ⟨.debug, .runner,
    "Loaded " ++ path ++ " (" ++ toString source.length ++ " characters)"⟩
  return { outcome with log := note :: outcome.log }

end Lox
