import Inventory.CommandLine.Plan

/-! Calls on a disk that is plain data: the files by their absolute paths. A path is read from the
working directory unless it starts with a slash. -/
namespace Inventory.CommandLine
set_option autoImplicit false

/-- The names from the top directory down to a file. -/
abbrev Path := List String

inductive Content where
  | text (content : String)
  | database (store : Store)
  deriving DecidableEq

/-- The files and where calls are made. There are the directories that the files lie in, and the
working directory. -/
structure Disk where
  workingDirectory : Path := []
  files : List (Path × Content) := []
  deriving DecidableEq

namespace Path

/-- The path after one more step: nowhere, up, or down. -/
def step (path : Path) (name : String) : Path :=
  if name = "" ∨ name = "." then path
  else if name = ".." then path.dropLast
  else path ++ [name]

/-- The length of the absolute path as text, in bytes. -/
def size (path : Path) : Nat := path.foldr (fun name n => 1 + name.utf8ByteSize + n) 0

/-- Where a text starts: at the top, or in the working directory. -/
def start (directory : Path) (text : String) : Path :=
  if text.toList.head? = some '/' then [] else directory

/-- The names in a text, between its slashes. -/
def names (text : String) : List String := (Text.fields '/' text.toList).map String.ofList

/-- The path that a text means in a directory, whatever there is on the way. -/
def resolve (directory : Path) (text : String) : Path :=
  (names text).foldl step (start directory text)

end Path

namespace Disk

def file? (disk : Disk) (path : Path) : Option Content := disk.files.lookup path

def isDirectory (disk : Disk) (path : Path) : Bool :=
  path.isPrefixOf disk.workingDirectory ||
    disk.files.any fun file => path.isPrefixOf file.1 && path != file.1

def write (disk : Disk) (path : Path) (content : Content) : Disk :=
  { disk with files := (path, content) :: disk.files.filter (·.1 != path) }

def holds (disk : Disk) (path : Path) : Bool :=
  (disk.file? path).isSome || disk.isDirectory path

/-- The longest name of a file, in bytes. -/
def maxName : Nat := 255

/-- The longest path, in bytes. -/
def maxPath : Nat := 4095

/-- The longest absolute path of a database, in bytes. -/
def maxDatabasePath : Nat := 504

/-! ## Texts -/

/-- One step on the way to a file, out of a directory that has to be there. -/
def enter (disk : Disk) (path : Path) (name : String) : Except ReadFailure Path :=
  if !disk.isDirectory path then
    .error (if (disk.file? path).isSome then .blocked else .missing)
  else if maxName < name.utf8ByteSize then .error .tooLong
  else .ok (path.step name)

/-- The place that a text leads to when it is followed step by step. -/
def follow (disk : Disk) (text : String) : Except ReadFailure Path :=
  if text = "" then .error .missing
  else if maxPath < text.utf8ByteSize then .error .tooLong
  else (Path.names text).foldlM disk.enter (Path.start disk.workingDirectory text)

def readText (disk : Disk) (text : String) : Except ReadFailure String := do
  let path ← disk.follow text
  match disk.file? path with
  | some (.text content) => return content
  | some (.database _) => throw .notText
  | none => throw (if disk.isDirectory path then .directory else .missing)

/-- The user's configuration file, if it is there. -/
def userConfig? (disk : Disk) (environment : Environment) : Option String :=
  environment.userConfig?.filter fun text => (disk.follow text).toOption.any disk.holds

/-! ## Databases -/

/-- One step on the way to a database. A step up undoes the step before it, whether that leads
somewhere or not, but no step leads down from a file. -/
def approach? (disk : Disk) (path : Path) (name : String) : Option Path :=
  let next := path.step name
  let tooLong := maxName < name.utf8ByteSize ∨ maxDatabasePath < next.size
  if path.length < next.length ∧ (tooLong ∨ (disk.file? path).isSome) then none else some next

/-- Opens a file as a database, which makes the file if it is missing and may be made. -/
def openFile? (disk : Disk) (location : Location) : Option (Path × Disk) := do
  let path ← (Path.names location.path).foldlM disk.approach?
    (Path.start disk.workingDirectory location.path)
  if disk.isDirectory path then none
  else if (disk.file? path).isSome then return (path, disk)
  else if location.creates ∧ disk.isDirectory path.dropLast then
    return (path, disk.write path (.text ""))
  else none

/-- What is added to the name of a database for the file that its first change is prepared in. -/
def besideName : String := "-journal"

/-- What an open file has in it. -/
def readDatabase (disk : Disk) (path : Path) (readOnly : Bool) :
    Except OpenFailure (Option Store) :=
  match disk.file? path with
  | some (.database store) => .ok (some store)
  | content =>
    if content.any (· ≠ .text "") then .error .foreign
    else if !readOnly && maxName < (path.getLastD "" ++ besideName).utf8ByteSize then
      .error .cramped
    else .ok none

def perform (disk : Disk) (plan : Plan) : Exit × Disk :=
  match Location.parse plan.database with
  | .error fault => ((plan.run false (.error (.misnamed fault))).1, disk)
  | .ok location =>
    let readOnly := location.isReadOnly
    if location.isVolatile then ((plan.run readOnly (.ok none)).1, disk)
    else
      match disk.openFile? location with
      | none => ((plan.run readOnly (.error .unreachable)).1, disk)
      | some (path, disk) =>
        match plan.run readOnly (disk.readDatabase path readOnly) with
        | (exit, some store) => (exit, disk.write path (.database store))
        | (exit, none) => (exit, disk)

/-- The plan of a call, or how the call ends without one. -/
def plan (disk : Disk) (environment : Environment) (args : List String) : Except Exit Plan :=
  match Invocation.parse environment args with
  | .error refusal => .error (.ofRefusal environment refusal)
  | .ok invocation =>
    let file := (invocation.configFile (disk.userConfig? environment)).map fun text =>
      (text, disk.readText text)
    (invocation.plan file).mapError .failure

def call (disk : Disk) (environment : Environment) (args : List String) : Exit × Disk :=
  match disk.plan environment args with
  | .error exit => (exit, disk)
  | .ok plan => disk.perform plan

end Disk
end Inventory.CommandLine
