import Inventory.CommandLine.Disk
import Inventory.Store.Snapshot

/-! The program: reads the variables, the configuration and the database, carries out the call, and
writes the database back. -/
namespace Inventory.CommandLine
set_option autoImplicit false

def environment : IO Environment := do
  return {
    home := ← IO.getEnv "HOME"
    configHome := ← IO.getEnv "XDG_CONFIG_HOME"
    db := ← IO.getEnv "NODETREE_DB"
    config := ← IO.getEnv "NODETREE_CONFIG"
    log := ← IO.getEnv "NODETREE_LOG" }

def readText (path : String) : IO (Except ReadFailure String) := do
  let file := (← IO.currentDir) / path
  if ← file.isDir then return .error .directory
  if !(← file.pathExists) then return .error .missing
  match String.fromUTF8? (← IO.FS.readBinFile file) with
  | some text => return .ok text
  | none => return .error .notText

/-- The absolute path of a database. -/
def databasePath (location : Location) : IO String := do
  let directory := (← IO.currentDir).toString
  return "/" ++ "/".intercalate (Path.resolve (Path.resolve [] directory) location.path)

/-- What is in a database file. -/
def readDatabase (location : Location) (path : String) :
    IO (Except OpenFailure (Option Store)) := do
  match ← readText path with
  | .ok "" => return .ok none
  | .ok text => return (Store.ofSnapshot? text).elim (.error .foreign) (.ok ∘ some)
  | .error .notText => return .error .foreign
  | .error .missing =>
    let directory := "/" ++ "/".intercalate (Path.resolve [] path).dropLast
    let reachable := location.creates && (← ((← IO.currentDir) / directory).isDir)
    return if reachable then .ok none else .error .unreachable
  | .error _ => return .error .unreachable

/-- Carries out a plan on its database file. -/
def perform (plan : Plan) : IO Exit := do
  match Location.parse plan.database with
  | .error fault => return (plan.run false (.error (.misnamed fault))).1
  | .ok location =>
    if location.isVolatile then return (plan.run location.isReadOnly (.ok none)).1
    let path ← databasePath location
    let (exit, store) := plan.run location.isReadOnly (← readDatabase location path)
    if let some store := store then
      IO.FS.writeFile ((← IO.currentDir) / path) store.snapshot
    return exit

def call (args : List String) : IO Exit := do
  let environment ← environment
  match Invocation.parse environment args with
  | .error refusal => return .ofRefusal environment refusal
  | .ok invocation =>
    let user ← match environment.userConfig? with
      | some path => do
        pure (if ← ((← IO.currentDir) / path).pathExists then some path else none)
      | none => pure none
    let file ← (invocation.configFile user).mapM fun path => return (path, ← readText path)
    match invocation.plan file with
    | .error message => return .failure message
    | .ok plan => perform plan

end Inventory.CommandLine

def main (args : List String) : IO UInt32 := do
  let exit ← Inventory.CommandLine.call args
  IO.print exit.output
  if let some error := exit.error then IO.eprintln error
  if exit = Inventory.CommandLine.Exit.misuse then IO.eprintln "error: unexpected arguments; for more information try --help"
  return exit.code.toUInt32
