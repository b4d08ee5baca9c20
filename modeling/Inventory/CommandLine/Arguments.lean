import Inventory.CommandLine.Environment
import Inventory.CommandLine.LogFilter
import Inventory.CommandLine.Usage
import Inventory.Record
import Inventory.Text.Numeral

/-! The arguments of the command line. Options come before or after the name of the command; those
after it win over those before it, and both over environment variables. Each option may come once
on either side, but nodes may be given repeatedly. Everything after two dashes is an operand. -/
namespace Inventory.CommandLine
set_option autoImplicit false

/-- What a call asks for. -/
inductive Command where
  | init (name : String)
  | mkdir (hierarchy : HierarchyId) (path : String)
  | asset (hierarchy : HierarchyId) (name : String) (nodes : List NodeId)
  | attach (node : NodeId) (assets : List AssetId)
  | detach (node : NodeId) (assets : List AssetId)
  | reassign (target : NodeId) (assets : List AssetId)
  | count (node : NodeId)
  | reconcile (hierarchy : HierarchyId) (check : Bool)
  | tree (hierarchy : HierarchyId)
  deriving DecidableEq

/-- The options that every command knows, as given on one side of its name. -/
structure Shared where
  db : Option String := none
  config : Option String := none
  format : Option Format := none
  logLevel : Option String := none
  deriving DecidableEq

/-- A call that is understood. -/
structure Invocation where
  db : Option String
  config : Option String
  format : Format
  command : Command
  deriving DecidableEq

/-- Why there is no command to carry out. -/
inductive Refusal where
  /-- The arguments are wrong. -/
  | usage
  | version
  /-- Help was asked for, on one command or on all. -/
  | help (usage : Option Usage)
  /-- The arguments are right, but they log by a filter that is not. -/
  | filter (fault : FilterFault)

/-! ## Words -/

inductive Word where
  /-- A long option, with what follows an equals sign. -/
  | long (name : String) (value : Option String)
  /-- Short options behind one dash. -/
  | short (first : Char)
  | separator
  | plain (text : String)

/-- Splits a text at its first equals sign. -/
def splitEquals (text : List Char) : List Char × Option (List Char) :=
  match text.dropWhile (· ≠ '=') with
  | [] => (text, none)
  | _ :: value => (text.takeWhile (· ≠ '='), some value)

def Word.of (text : String) : Word :=
  match text.toList with
  | ['-', '-'] => .separator
  | '-' :: '-' :: rest =>
    let (name, value) := splitEquals rest
    .long (String.ofList name) (value.map String.ofList)
  | '-' :: c :: _ => .short c
  | _ => .plain text

/-- A signed number of 64 bits; a plus sign is allowed. -/
def readInteger? (text : String) : Option Int :=
  match text.toList with
  | '-' :: digits => (Text.readNumeral? digits).bind fun n => Text.signed? (-n)
  | '+' :: digits => (Text.readNumeral? digits).bind fun n => Text.signed? n
  | digits => (Text.readNumeral? digits).bind fun n => Text.signed? n

/-- The value of an option that takes one: what follows the equals sign, or the next word if that
is no option; and the words behind it. -/
def takeValue (value : Option String) (rest : List String) : Option (String × List String) :=
  match value, rest with
  | some v, _ => some (v, rest)
  | none, next :: rest =>
    match Word.of next with
    | .plain text => some (text, rest)
    | _ => none
  | none, [] => none

theorem takeValue_length {value : Option String} {rest after : List String} {v : String}
    (h : takeValue value rest = some (v, after)) : after.length ≤ rest.length := by
  unfold takeValue at h
  split at h
  · obtain ⟨-, rfl⟩ := Prod.mk.inj (Option.some.inj h)
    exact Nat.le_refl _
  · split at h
    · obtain ⟨-, rfl⟩ := Prod.mk.inj (Option.some.inj h)
      exact Nat.le_succ _
    · simp at h
  · simp at h

namespace Shared

def formatOf? : String → Option Format
  | "text" => some .text
  | "json" => some .json
  | _ => none

/-- Sets a shared option that is not set yet; file names are not empty. -/
def set? (shared : Shared) (name value : String) : Option Shared :=
  match name with
  | "db" => if shared.db.isNone && value != "" then some { shared with db := value } else none
  | "config" =>
    if shared.config.isNone && value != "" then some { shared with config := value } else none
  | "format" =>
    if shared.format.isNone then (formatOf? value).map fun f => { shared with format := some f }
    else none
  | "log-level" => if shared.logLevel.isNone then some { shared with logLevel := value } else none
  | _ => none

def names : List String := ["db", "config", "format", "log-level"]

end Shared

/-! ## The two sides of a command's name -/

/-- What has been read before the name of a command. An option whose value is a word of its own
waits: it is set when the next option comes, or else at the end of the whole call, so that help on
the command can be had whatever the value is. -/
structure Before where
  shared : Shared := {}
  waiting : Option (String × String) := none

/-- Sets the option that waits. -/
def Before.settle (before : Before) : Except Refusal Shared :=
  match before.waiting with
  | none => .ok before.shared
  | some (name, value) => (before.shared.set? name value).elim (.error .usage) .ok

/-- Puts an option behind those that have been read. -/
def Before.add (before : Before) (name value : String) (attached : Bool) :
    Except Refusal Before := do
  let shared ← before.settle
  if attached then (shared.set? name value).elim (.error .usage) fun shared => .ok { shared }
  else return { shared, waiting := some (name, value) }

/-- Refuses to go on, unless the option that waits is wrong. -/
def Before.stop {α : Type} (before : Before) (refusal : Refusal) : Except Refusal α := do
  discard before.settle
  throw refusal

/-- Reads up to the name of the command. -/
def scanBefore (before : Before) (args : List String) :
    Except Refusal (Before × Usage × List String) :=
  match args with
  | [] => .error .usage
  | arg :: rest =>
    match Word.of arg with
    | .separator => .error .usage
    | .short c =>
      before.stop (if c = 'h' then .help none else if c = 'V' then .version else .usage)
    | .plain name =>
      match usages.find? (·.name == name) with
      | some usage => .ok (before, usage, rest)
      | none => .error .usage
    | .long name value =>
      if name = "help" ∧ value.isNone then before.stop (.help none)
      else if name = "version" ∧ value.isNone then before.stop .version
      else if name ∉ Shared.names then .error .usage
      else
        match h : takeValue value rest with
        | none => .error .usage
        | some (v, after) =>
          match before.add name v value.isSome with
          | .ok before =>
            have := takeValue_length h
            scanBefore before after
          | .error refusal => .error refusal
  termination_by args.length
  decreasing_by simp; omega

structure Behind where
  shared : Shared := {}
  operands : List String := []
  nodes : List Int := []
  check : Bool := false

/-- Adds an operand of the right kind, if there may be one more. -/
def addOperand (usage : Usage) (behind : Behind) (text : String) : Option Behind :=
  let expected := match usage.operands[behind.operands.length]? with
    | some operand => some operand
    | none => usage.operands.getLast?.filter (·.repeated)
  match expected with
  | none => none
  | some operand =>
    if operand.kind = .number ∧ (readInteger? text).isNone then none
    else some { behind with operands := behind.operands ++ [text] }

def addOperands (usage : Usage) (behind : Behind) : List String → Option Behind
  | [] => some behind
  | text :: rest => do addOperands usage (← addOperand usage behind text) rest

def scanBehind (usage : Usage) (behind : Behind) (args : List String) : Except Refusal Behind :=
  match args with
  | [] => .ok behind
  | arg :: rest =>
    match Word.of arg with
    | .separator => ((addOperands usage behind rest).map .ok).getD (.error .usage)
    | .short c => .error (if c = 'h' then .help (some usage) else .usage)
    | .plain text =>
      match addOperand usage behind text with
      | some behind => scanBehind usage behind rest
      | none => .error .usage
    | .long name value =>
      if name = "help" ∧ value.isNone then .error (.help (some usage))
      else if name = "check" then
        if usage.own = some .check ∧ value.isNone ∧ ¬behind.check then
          scanBehind usage { behind with check := true } rest
        else .error .usage
      else
        match h : takeValue value rest with
        | none => .error .usage
        | some (v, after) =>
          have := takeValue_length h
          if name = "node" then
            match usage.own, readInteger? v with
            | some .node, some n => scanBehind usage { behind with nodes := behind.nodes ++ [n] } after
            | _, _ => .error .usage
          else
            match behind.shared.set? name v with
            | some shared => scanBehind usage { behind with shared } after
            | none => .error .usage
  termination_by args.length
  decreasing_by all_goals simp; try omega

/-! ## Calls -/

def command? (name : String) (behind : Behind) : Option Command :=
  match name, behind.operands with
  | "init", [text] => some (.init text)
  | "mkdir", [hierarchy, path] => do return .mkdir (← readInteger? hierarchy) path
  | "asset", [hierarchy, text] => do return .asset (← readInteger? hierarchy) text behind.nodes
  | "attach", node :: asset :: more => do
    return .attach (← readInteger? node) (← (asset :: more).mapM readInteger?)
  | "detach", node :: asset :: more => do
    return .detach (← readInteger? node) (← (asset :: more).mapM readInteger?)
  | "reassign", node :: asset :: more => do
    return .reassign (← readInteger? node) (← (asset :: more).mapM readInteger?)
  | "count", [node] => do return .count (← readInteger? node)
  | "reconcile", [hierarchy] => do return .reconcile (← readInteger? hierarchy) behind.check
  | "tree", [hierarchy] => do return .tree (← readInteger? hierarchy)
  | _, _ => none

/-- The file that an option names on either side of the command, or else a variable does. An empty
variable is wrong where a side has to fall back on it. -/
def fileOption (behind before fallback : Option String) : Except Refusal (Option String) :=
  match behind, before, fallback with
  | some file, some _, _ => .ok (some file)
  | _, _, some "" => .error .usage
  | some file, none, _ => .ok (some file)
  | none, some file, _ => .ok (some file)
  | none, none, _ => .ok fallback

def usualLogFilter : String := "warn"

/-- Reads a whole call that sees some variables. Logging starts before anything else is done, so
its filter has to be right. -/
def Invocation.parse (environment : Environment) (args : List String) :
    Except Refusal Invocation := do
  let (before, usage, rest) ← scanBefore {} args
  let behind ← scanBehind usage {} rest
  let before ← before.settle
  let db ← fileOption behind.shared.db before.db environment.db
  let config ← fileOption behind.shared.config before.config environment.config
  match command? usage.name behind with
  | none => throw .usage
  | some command =>
    let filter := behind.shared.logLevel <|> before.logLevel <|> environment.log
    (checkLogFilter (filter.getD usualLogFilter)).mapError .filter
    return { db, config, command, format := (behind.shared.format <|> before.format).getD .text }

end Inventory.CommandLine
