import FilterConsole.Config.FromToml
import FilterConsole.Files
import FilterConsole.Toml.Reader

/-! Where the configuration comes from: the file that was asked for, else the first of the usual files that exists, else
the defaults. Settings of the command line come last. -/

namespace FilterConsole

inductive ConfigError where
  | unreadable (path : String) (problem : FileProblem)
  | malformed
  | rejected (fault : Config.Fault)
  deriving DecidableEq, Repr

def ConfigError.message : ConfigError → String
  | unreadable path problem => "Cannot read console config " ++ path ++ ": " ++ problem.text
  | malformed => "Invalid console config TOML"
  | rejected fault => "Console config rejected: " ++ fault.message

namespace Config

def parse (s : String) : Except ConfigError Config :=
  match Toml.parse? s >>= ofToml? with
  | some c => .ok c
  | none => .error .malformed

def readFile (files : Files) (path : String) : Except ConfigError Config :=
  match files.readText path with
  | .ok s => parse s
  | .error problem => .error (.unreadable path problem)

def usualPaths : List String := ["dns-console.toml", "/etc/dns-console/config.toml"]

def source (files : Files) (path : Option String) : Option String :=
  path <|> usualPaths.find? files.has

def load (files : Files) (path : Option String) (overrides : Overrides) : Except ConfigError Config := do
  let c ← match source files path with
    | some path => readFile files path
    | none => .ok {}
  return c.override overrides

def loadValid (files : Files) (path : Option String) (overrides : Overrides) : Except ConfigError Config := do
  let c ← load files path overrides
  match c.fault? with
  | none => .ok c
  | some fault => .error (.rejected fault)

end Config

end FilterConsole
