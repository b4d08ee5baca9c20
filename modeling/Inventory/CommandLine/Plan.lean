import Inventory.CommandLine.Arguments
import Inventory.CommandLine.Help
import Inventory.CommandLine.Location
import Inventory.CommandLine.Output
import Inventory.Config.Basic
import Inventory.Request

/-! A call in three stages, with the files read in between: the arguments give an invocation, that
and the configuration give a plan, and the plan changes the stored tree. It opens the tree, carries
out its command, lets the queue run, and closes the tree however that went. -/
namespace Inventory.CommandLine
set_option autoImplicit false

structure Exit where
  code : Nat
  output : String := ""
  /-- Why it failed. -/
  error : Option String := none
  deriving DecidableEq

namespace Exit

def success (output : String) : Exit := { code := 0, output }

def failure (message : String) : Exit := { code := 1, error := some s!"error: {message}" }

/-- The arguments are wrong. -/
def misuse : Exit := { code := 2 }

/-- The program cannot go on. -/
def crash : Exit := { code := 101 }

def ofRefusal (environment : Environment) : Refusal → Exit
  | .usage => misuse
  | .version => success "nodetree 0.4.0\n"
  | .help none => success (programHelp environment)
  | .help (some usage) => success (usage.helpText environment)
  | .filter .torn => crash
  | .filter fault => failure s!"invalid argument: invalid log level: {fault.message}"

end Exit

/-! ## Files -/

/-- Why the text of a file cannot be had. -/
inductive ReadFailure where
  | missing
  /-- The path leads through something that is no directory. -/
  | blocked
  | directory
  /-- The path, or a name on it, is longer than any that there can be. -/
  | tooLong
  | notText
  deriving DecidableEq

inductive OpenFailure where
  /-- The name leads nowhere. -/
  | misnamed (fault : LocationFault)
  /-- There is no file in that place, and none can be made. -/
  | unreachable
  /-- The file holds something else. -/
  | foreign
  /-- The name of the file leaves no room for those of the files beside it. -/
  | cramped
  deriving DecidableEq

def ReadFailure.message : ReadFailure → String
  | missing => "No such file or directory (os error 2)"
  | blocked => "Not a directory (os error 20)"
  | directory => "Is a directory (os error 21)"
  | tooLong => "File name too long (os error 36)"
  | notText => "stream did not contain valid UTF-8"

/-- What is said about the database with a name. -/
def OpenFailure.message (name : String) : OpenFailure → String
  | misnamed fault => s!"store: {fault.message}"
  | unreachable => s!"store: unable to open database file: {name}"
  | foreign => "store: file is not a database"
  | cramped => "store: unable to open database file"

/-! ## Commands -/

namespace Command

variable {σ : Type}

def run : Command → Action σ Output
  | init name => do
    let (hierarchy, root) ← Tree.createHierarchy name
    return .made hierarchy root
  | mkdir hierarchy path => .node <$> Tree.createPath hierarchy path
  | asset hierarchy name nodes => .asset <$> Tree.createAsset hierarchy name nodes
  | attach node assets => .attached <$> Tree.attach node assets
  | detach node assets => .detached <$> Tree.detach node assets
  | reassign target assets => .moved <$> Tree.reassign assets target
  | count id => do
    let node ← Action.read (·.requireNode id)
    let computed ← Action.read (·.subtreeCount id)
    return .count id node.key node.amount computed
  | reconcile hierarchy check =>
    .reconciled <$> Tree.reconcile hierarchy (if check then .checkOnly else .repair)
  | tree hierarchy => .nodes <$> Action.read (·.nodesOf hierarchy)

/-- A command that succeeds is followed by the reconciliations that it left to the queue. -/
def runAndSettle (command : Command) : Action σ Output := do
  let output ← command.run
  Tree.flush
  return output

/-- Opens a stored tree, carries out a command, and closes the tree. -/
def serve (command : Command) (options : Options) (store : Store) :
    Except Error Output × Store :=
  match Tree.openStore store options with
  | (.error e, store) => (.error e, store)
  | (.ok opened, _) =>
    let (result, w) := command.runAndSettle Surroundings.quiet ⟨opened, ()⟩
    (result, w.tree.close)

end Command

/-! ## Plans -/

/-- A command with all that it needs besides the stored tree. -/
structure Plan where
  database : String
  options : Options
  format : Format
  command : Command
  deriving DecidableEq

/-- The file that a call is configured by: the one that is named, or else the user's. -/
def Invocation.configFile (invocation : Invocation) (user : Option String) : Option String :=
  invocation.config <|> user

/-- A configuration that has been read from a file. -/
def readConfig (path : String) (content : Except ReadFailure String) :
    Except String (Config × Options) := do
  match content with
  | .error failure => throw s!"failed to read config {path}: {failure.message}"
  | .ok text =>
    let config ← (Config.parse text).mapError ConfigError.message
    return (config, ← config.options.mapError ConfigError.message)

/-- The plan of an invocation, with the configuration file that it has, if any. -/
def Invocation.plan (invocation : Invocation)
    (file : Option (String × Except ReadFailure String)) : Except String Plan := do
  let plan (options : Options) (database : String) : Plan :=
    { database, options, format := invocation.format, command := invocation.command }
  match file with
  | none =>
    match invocation.db with
    | some db => return plan {} db
    | none => throw "no database given; pass --db or set NODETREE_DB"
  | some (path, content) =>
    let (config, options) ← readConfig path content
    match invocation.db <|> config.database with
    | some db => return plan options db
    | none => throw "no database given; pass --db or set [database] default in the config"

namespace Plan

/-- The longest wait for a database that can be set, in milliseconds. -/
def maxBusyTimeout : Nat := 2147483647

/-- A database that may not be written was to be. -/
def writeRefused : Exit := .failure "store: attempt to write a readonly database"

/-- Carries out a plan on a database that may not be written. One that is empty would have to be
prepared, and one with marks would have to be repaired. -/
def runReadOnly (plan : Plan) : Option Store → Exit
  | none => writeRefused
  | some store =>
    if store.pending ≠ [] then writeRefused
    else
      match plan.command.serve plan.options store with
      | (.error e, _) => .failure e.message
      | (.ok output, after) =>
        if output.writesAnyway ∨ after ≠ store then writeRefused
        else .success (output.render plan.format)

/-- Carries out a plan on its database, in which nothing may be yet, and gives what is in it
afterwards if it is written. The wait for it is set once it is open. -/
def run (plan : Plan) (readOnly : Bool) (content : Except OpenFailure (Option Store)) :
    Exit × Option Store :=
  let waits := plan.options.busyTimeout ≤ maxBusyTimeout
  match content with
  | .error (.misnamed fault) => (.failure (OpenFailure.message plan.database (.misnamed fault)), none)
  | .error .unreachable => (.failure (OpenFailure.message plan.database .unreachable), none)
  | .error failure =>
    (if waits then .failure (OpenFailure.message plan.database failure) else .crash, none)
  | .ok found =>
    if ¬waits then (.crash, none)
    else if readOnly then (plan.runReadOnly found, none)
    else
      match plan.command.serve plan.options (found.getD {}) with
      | (.ok output, store) => (.success (output.render plan.format), some store)
      | (.error e, store) => (.failure e.message, some store)

end Plan
end Inventory.CommandLine
