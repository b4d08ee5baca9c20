import Inventory.CommandLine.Environment
import Inventory.CommandLine.Usage
import Inventory.Text.Unstyled

/-! What is shown to someone who asks for help: all commands, or one command with its operands and
options. Lists have two columns, the second of which starts two blanks behind the longest entry of
the first; a line break in it leads to the same column. Values of variables are shown without the
sequences that would control a terminal. -/
namespace Inventory.CommandLine
set_option autoImplicit false

/-- An entry of a list with what is said about it. -/
structure HelpLine where
  entry : String
  help : String

def helpList (heading : String) (lines : List HelpLine) : String :=
  let width := (lines.map (·.entry.length)).max?.getD 0
  let blanks (n : Nat) := String.ofList (List.replicate n ' ')
  heading ++ ":\n" ++ String.join (lines.map fun line =>
    let help := ("\n" ++ blanks (width + 4)).intercalate (line.help.splitOn "\n")
    "  " ++ line.entry ++ blanks (width - line.entry.length + 2) ++ help ++ "\n")

/-- The variable that stands for an option, with its value. -/
def envNote (name : String) (value : Option String) : String :=
  " [env: " ++ name ++ "=" ++ value.getD "" ++ "]"

def sharedHelp (environment : Environment) : List HelpLine := [
  ⟨"    --db <FILE>", "Database file" ++ envNote "NODETREE_DB" environment.db⟩,
  ⟨"    --config <FILE>", "Config file (defaults to the user config dir)" ++
    envNote "NODETREE_CONFIG" environment.config⟩,
  ⟨"    --format <FORMAT>", "Output format for structured responses [default: text] " ++
    "[possible values: text, json]"⟩,
  ⟨"    --log-level <LOG_LEVEL>", "Log filter directive (e.g. info, nodetree=debug)" ++
    envNote "NODETREE_LOG" environment.log ++ " [default: warn]"⟩]

def helpOption : HelpLine := ⟨"-h, --help", "Print help"⟩

def versionOption : HelpLine := ⟨"-V, --version", "Print version"⟩

def programHelp (environment : Environment) : String :=
  Text.unstyled <| "Inspect and edit a node tree with cached asset counts\n\n" ++
  "Usage: nodetree [OPTIONS] <COMMAND>\n\n" ++
  helpList "Commands" (usages.map fun usage => ⟨usage.name, usage.about⟩) ++ "\n" ++
  helpList "Options" (sharedHelp environment ++ [helpOption, versionOption])

namespace Usage

/-- An operand as it is written in a call. -/
def placeholder (operand : Operand) : String :=
  "<" ++ operand.label ++ ">" ++ if operand.repeated then "..." else ""

/-- The options of a command in alphabetical order, apart from that for help. -/
def optionHelp (environment : Environment) (usage : Usage) : List HelpLine :=
  match usage.own, sharedHelp environment with
  | some .check, shared => ⟨"    --check", "Report drift without writing"⟩ :: shared
  | some .node, first :: rest =>
    first :: ⟨"    --node <NODE_ID>", "Nodes to attach to (root when omitted)"⟩ :: rest
  | _, shared => shared

def helpText (environment : Environment) (usage : Usage) : String :=
  Text.unstyled <| usage.about ++ "\n\n" ++
  "Usage: nodetree " ++ usage.name ++ " [OPTIONS] " ++
    " ".intercalate (usage.operands.map placeholder) ++ "\n\n" ++
  helpList "Arguments" (usage.operands.map fun operand => ⟨placeholder operand, operand.help⟩) ++
  "\n" ++ helpList "Options" (usage.optionHelp environment ++ [helpOption])

end Usage
end Inventory.CommandLine
