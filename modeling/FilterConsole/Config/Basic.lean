import FilterConsole.Config.LogFormat
import FilterConsole.HitOrder
import FilterConsole.Text.Blank

/-! The console's configuration: where the service is, how an update is watched, what the page starts with, and what is
logged. Every setting has a default of its own. -/

namespace FilterConsole

namespace Config

structure Api where
  baseUrl : String := "http://127.0.0.1:8080"
  pathPrefix : String := "/api/1"
  timeoutSecs : UInt64 := 10
  token : Option String := none
  deriving DecidableEq, Repr

structure Watcher where
  intervalMs : UInt64 := 1000
  maxPolls : UInt32 := 600
  deriving DecidableEq, Repr

structure Presentation where
  loginOnAnyFailure : Bool := false
  sortField : SortField := .updatedAt
  sortDirection : SortDirection := .desc
  deriving DecidableEq, Repr

structure Logging where
  level : String := "info"
  format : LogFormat := .text
  deriving DecidableEq, Repr

end Config

structure Config where
  api : Config.Api := {}
  watcher : Config.Watcher := {}
  presentation : Config.Presentation := {}
  logging : Config.Logging := {}
  deriving DecidableEq, Repr

namespace Config

def Watcher.limit (w : Watcher) : Option UInt32 := if w.maxPolls = 0 then none else some w.maxPolls

def Presentation.order (p : Presentation) : HitOrder := ⟨p.sortField, p.sortDirection⟩

/-- Settings given on the command line. They replace those of a file. -/
structure Overrides where
  baseUrl : Option String := none
  token : Option String := none
  logLevel : Option String := none
  logFormat : Option LogFormat := none
  deriving DecidableEq, Repr

def override (c : Config) (o : Overrides) : Config :=
  { c with
    api := { c.api with baseUrl := o.baseUrl.getD c.api.baseUrl, token := o.token <|> c.api.token }
    logging := ⟨o.logLevel.getD c.logging.level, o.logFormat.getD c.logging.format⟩ }

inductive Fault where
  | blankBaseUrl
  | zeroTimeout
  | zeroInterval
  deriving DecidableEq, Repr

def Fault.message : Fault → String
  | blankBaseUrl => "API base URL cannot be empty"
  | zeroTimeout => "Request timeout cannot be 0"
  | zeroInterval => "Watcher poll interval cannot be 0"

def fault? (c : Config) : Option Fault :=
  if trim c.api.baseUrl = "" then some .blankBaseUrl
  else if c.api.timeoutSecs = 0 then some .zeroTimeout
  else if c.watcher.intervalMs = 0 then some .zeroInterval
  else none

end Config

end FilterConsole
