import Inventory.Options
import Inventory.Text.Blank
import Inventory.Toml.Document
import Inventory.Toml.Printer

/-! The configuration file: options of the tree in one section, the default database in another.
Unknown keys are an error among the options and are passed over elsewhere. -/
namespace Inventory
set_option autoImplicit false

inductive ConfigError where
  /-- There is no such file, or it is no text. -/
  | unreadable
  /-- The text is no document, or a value is of the wrong type. -/
  | malformed
  /-- A number is too large to be written. -/
  | tooLarge
  | zeroBatchLimit
  | blankNodeName
  deriving DecidableEq

/-- The options that a configuration sets, and its default database. -/
structure Config where
  batchLimit : Option Nat := none
  coalesceWindow : Option Nat := none
  lockTimeout : Option Nat := none
  busyTimeout : Option Nat := none
  newNodeName : Option String := none
  database : Option String := none
  deriving DecidableEq

namespace ConfigError

def message : ConfigError → String
  | unreadable => "failed to read config"
  | malformed => "failed to parse config"
  | tooLarge => "failed to serialize config: out-of-range value for u64 type"
  | zeroBatchLimit => "config field incremental_batch_limit: must be at least 1"
  | blankNodeName => "config field new_node_name: must not be blank"

end ConfigError

namespace Config

open Toml (Value Entries)

/-! ## Reading -/

def count? : Value → Option Nat
  | .integer n => if 0 ≤ n then some n.toNat else none
  | _ => none

def text? : Value → Option String
  | .string s => some s
  | _ => none

def set? (config : Config) (name : String) (value : Value) : Option Config :=
  match name with
  | "incremental_batch_limit" => do return { config with batchLimit := ← count? value }
  | "coalesce_window_ms" => do return { config with coalesceWindow := ← count? value }
  | "lock_acquire_timeout_ms" => do return { config with lockTimeout := ← count? value }
  | "busy_timeout_ms" => do return { config with busyTimeout := ← count? value }
  | "new_node_name" => do return { config with newNodeName := ← text? value }
  | _ => none

/-- The names of the options in the order in which they are written. -/
def names : List String :=
  ["incremental_batch_limit", "coalesce_window_ms", "lock_acquire_timeout_ms", "busy_timeout_ms",
    "new_node_name"]

def setAll? (config : Config) : List (String × Value) → Option Config
  | [] => some config
  | (name, value) :: rest => do (← config.set? name value).setAll? rest

/-- The options, as a table or as an array that has at least all of them in their order. -/
def readTree? (config : Config) : Value → Option Config
  | .table _ entries => config.setAll? entries
  | .array items | .tables items =>
    if items.length < names.length then none else config.setAll? (names.zip items)
  | _ => none

/-- The default database, as a table or as the first item of an array. A date has none. -/
def readDatabase? (config : Config) : Value → Option Config
  | .table _ entries =>
    match entries.lookup "default" with
    | none => some config
    | some value => do return { config with database := some (← text? value) }
  | .array (first :: _) => do return { config with database := some (← text? first) }
  | .datetime _ => some config
  | _ => none

def readSection? (entries : Entries) (name : String) (read : Config → Value → Option Config)
    (config : Config) : Option Config :=
  match entries.lookup name with
  | none => some config
  | some value => read config value

def ofEntries? (entries : Entries) : Option Config := do
  readSection? entries "database" readDatabase? (← readSection? entries "tree" readTree? {})

def parse (text : String) : Except ConfigError Config :=
  match (Toml.parse? text).bind ofEntries? with
  | some config => .ok config
  | none => .error .malformed

/-- Reads the bytes of a configuration file, if there is one. -/
def load (content : Option ByteArray) : Except ConfigError Config :=
  match content.bind String.fromUTF8? with
  | some text => parse text
  | none => .error .unreadable

/-- The options that a configuration sets, over the defaults. -/
def options (config : Config) : Except ConfigError Options := do
  let base : Options := {}
  if config.batchLimit = some 0 then throw .zeroBatchLimit
  if config.newNodeName.any fun name => name.toList.all Text.isBlank then throw .blankNodeName
  return {
    batchLimit := config.batchLimit.getD base.batchLimit
    coalesceWindow := config.coalesceWindow.getD base.coalesceWindow
    lockTimeout := config.lockTimeout
    busyTimeout := config.busyTimeout.getD base.busyTimeout
    newNodeName := config.newNodeName.getD base.newNodeName }

end Config

namespace Options

/-! ## Writing -/

/-- The lines that set the options, with the value of each. -/
def settings (options : Options) : List (String × List Char) :=
  [("incremental_batch_limit", Text.numeral options.batchLimit),
    ("coalesce_window_ms", Text.numeral options.coalesceWindow)] ++
  (options.lockTimeout.toList.map fun n => ("lock_acquire_timeout_ms", Text.numeral n)) ++
  [("busy_timeout_ms", Text.numeral options.busyTimeout),
    ("new_node_name", Toml.writeString options.newNodeName.toList)]

/-- Numbers are written as signed ones of 64 bits. -/
def writable (options : Options) : Bool :=
  ([options.batchLimit, options.coalesceWindow, options.busyTimeout] ++
    options.lockTimeout.toList).all fun n => decide ((n : Int) ≤ Text.maxSigned)

def render (options : Options) : Except ConfigError String :=
  if options.writable then
    .ok <| String.ofList <| "[tree]\n".toList ++
      (options.settings.flatMap fun s => s.1.toList ++ " = ".toList ++ s.2 ++ ['\n']) ++
      "\n[database]\n".toList
  else .error .tooLarge

/-- The options that the text of a configuration sets. -/
def parse (text : String) : Except ConfigError Options := do (← Config.parse text).options

end Options
end Inventory
