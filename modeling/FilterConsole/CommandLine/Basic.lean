import FilterConsole.Command
import FilterConsole.CommandLine.Level
import FilterConsole.Config.Basic

/-! The console's command line: settings of the program, then a task with its arguments. -/

namespace FilterConsole

inductive Task where
  | show (sort : Option SortField) (direction : Option SortDirection)
  | change (command : Command)
  | updateFilter
  deriving DecidableEq, Repr

structure Invocation where
  configPath : Option String
  overrides : Config.Overrides
  task : Task
  deriving DecidableEq, Repr

namespace CommandLine

/-- A number of 64 bits in decimal digits, with a plus sign or none. Each digit is looked at before the size. -/
def readSeconds (s : String) : Except UsageError UInt64 :=
  match s.toList with
  | [] => .error (.seconds .empty)
  | '+' :: [] => .error (.seconds .invalidDigit)
  | '+' :: cs => number cs
  | cs => number cs
where
  number (cs : List Char) : Except UsageError UInt64 := (cs.foldlM digit 0).map .ofNat
  digit (n : Nat) (c : Char) : Except UsageError Nat :=
    if !c.isDigit then .error (.seconds .invalidDigit)
    else if n * 10 + (c.toNat - 48) < 0x10000000000000000 then .ok (n * 10 + (c.toNat - 48))
    else .error (.seconds .tooLarge)

def readSortField (s : String) : Except UsageError SortField :=
  match SortField.ofName? s with
  | some f => .ok f
  | none => .error (.sortField s)

def readSortDirection (s : String) : Except UsageError SortDirection :=
  match SortDirection.ofName? s with
  | some d => .ok d
  | none => .error (.sortDirection s)

def readLogFormat (s : String) : Except UsageError LogFormat :=
  match LogFormat.ofName? s with
  | some f => .ok f
  | none => .error (.logFormat s)

def readAddress (s : String) : Except UsageError Address :=
  (Address.parse s).mapError fun _ => .address s

def check : Check := fun name value =>
  match name with
  | "log-format" => (readLogFormat value).map fun _ => ()
  | "sort" => (readSortField value).map fun _ => ()
  | "direction" => (readSortDirection value).map fun _ => ()
  | "ADDRESS" => (readAddress value).map fun _ => ()
  | "SECONDS" => (readSeconds value).map fun _ => ()
  | _ => .ok ()

def required (vs : Values) (name : String) : Except UsageError String :=
  match vs.lookup name with
  | some value => .ok value
  | none => .error .shape

def last (l : Level) (args : List String) : Except UsageError Values := do
  return (← l.parse check (fun _ _ => .error (ε := UsageError) (α := Unit) .shape) args).1

def branch {α : Type} (words : List String) (below : String → List String → Except UsageError α)
    (args : List String) : Except UsageError α := do
  match ← Level.parse { branches := words } check below args with
  | (_, some a) => return a
  | (_, none) => throw .shape

def readShow (args : List String) : Except UsageError Task := do
  let vs ← last { flags := [{ long := "sort" }, { long := "direction" }] } args
  return .show (← (vs.lookup "sort").mapM readSortField) (← (vs.lookup "direction").mapM readSortDirection)

def readAllow (action : String) (args : List String) : Except UsageError Task := do
  let domain ← required (← last { operands := ["DOMAIN"] } args) "DOMAIN"
  return .change (if action == "add" then .allow domain else .disallow domain)

def readOverride (action : String) (args : List String) : Except UsageError Task := do
  if action == "set" then
    let vs ← last { operands := ["DOMAIN", "ADDRESS"] } args
    return .change (.setOverride (← required vs "DOMAIN") (← readAddress (← required vs "ADDRESS")))
  else
    return .change (.removeOverride (← required (← last { operands := ["DOMAIN"] } args) "DOMAIN"))

def readAutoUpdate (action : String) (args : List String) : Except UsageError Task := do
  if action == "set" then
    let vs ← last { operands := ["SECONDS"] } args
    return .change (.setAutoUpdate (.every (← readSeconds (← required vs "SECONDS"))))
  else
    let _ ← last {} args
    return .change (.setAutoUpdate .disabled)

def readTask (word : String) (args : List String) : Except UsageError Task :=
  match word with
  | "show" => readShow args
  | "allow" => branch ["add", "remove"] readAllow args
  | "override" => branch ["set", "remove"] readOverride args
  | "auto-update" => branch ["set", "disable"] readAutoUpdate args
  | _ => (last {} args).map fun _ => .updateFilter

def top : Level where
  flags := [⟨"config", some 'c'⟩, ⟨"base-url", some 'u'⟩, ⟨"token", some 't'⟩, { long := "log-level" },
    { long := "log-format" }]
  branches := ["show", "allow", "override", "auto-update", "update-filter"]

/-- Reads a command line. The token of the environment stands in for one that is not given. -/
def parse (args : List String) (environmentToken : Option String) : Except UsageError Invocation := do
  match ← top.parse check readTask args with
  | (_, none) => throw .shape
  | (vs, some task) =>
    return {
      configPath := vs.lookup "config"
      overrides := {
        baseUrl := vs.lookup "base-url"
        token := vs.lookup "token" <|> environmentToken
        logLevel := vs.lookup "log-level"
        logFormat := ← (vs.lookup "log-format").mapM readLogFormat }
      task }

end CommandLine

end FilterConsole
