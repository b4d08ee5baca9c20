/-! The variables that a call sees. -/
namespace Inventory.CommandLine
set_option autoImplicit false

/-- Variables that are not set are absent. -/
structure Environment where
  home : Option String := none
  /-- Where users keep their configurations. -/
  configHome : Option String := none
  /-- The database file, unless an option names one. -/
  db : Option String := none
  /-- The configuration file, unless an option names one. -/
  config : Option String := none
  /-- Which events are logged. -/
  log : Option String := none
  deriving DecidableEq

def joinPath (directory path : String) : String :=
  if directory.toList.getLast? = some '/' then directory ++ path else directory ++ "/" ++ path

/-- The user's configuration file: in the directory for configurations if that is given by an
absolute path, or else below the home directory. -/
def Environment.userConfig? (environment : Environment) : Option String :=
  let homeConfig := (environment.home.filter (· != "")).map fun home => joinPath home ".config"
  let base := match environment.configHome with
    | some directory => if directory.toList.head? = some '/' then some directory else homeConfig
    | none => homeConfig
  base.map fun directory => joinPath directory "nodetree/config.toml"

end Inventory.CommandLine
