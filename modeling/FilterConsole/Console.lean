import FilterConsole.CommandLine.Basic
import FilterConsole.Config.Load
import FilterConsole.Http.Exchange
import FilterConsole.Log.Filter
import FilterConsole.Log.Line
import FilterConsole.Log.Trail
import FilterConsole.Page
import FilterConsole.Watch

/-! A run of the program: from the command line to a task and a configuration, through the task, to what is printed and
the exit status. -/

namespace FilterConsole

/-- Shows every section. A direction sets the order before the refresh; without one, a field is clicked after it. -/
def showConsole (sort : Option SortField) : Option SortDirection → Operation View
  | some direction => do
    let field := sort.getD (← Operation.session).order.field
    Operation.modify (·.setOrder ⟨field, direction⟩)
    refresh
  | none => do
    let view ← refresh
    match sort with
    | none => return view
    | some field => ExceptT.lift (.access (·.toggle field) fun s => .done (resort view field s).1)

structure Environment where
  files : Files
  token : Option String

inductive Refusal where
  | usage (e : UsageError)
  | config (e : ConfigError)
  deriving DecidableEq, Repr

def prepare (args : List String) (env : Environment) : Except Refusal (Task × Config) := do
  let invocation ← (CommandLine.parse args env.token).mapError .usage
  let config ← (Config.loadValid env.files invocation.configPath invocation.overrides).mapError .config
  return (invocation.task, config)

namespace Config

def session (c : Config) : Session :=
  .start c.presentation.order (c.api.token.bind Credential.ofSecret?)

def watchPolicy (c : Config) : WatchPolicy := ⟨c.watcher.intervalMs, c.watcher.limit⟩

end Config

namespace Task

variable {σ τ : Type}

/-- Carries out a task. A rebuild is watched after a refresh, so that there is a filter to compare with; the watch has
no result if it does not end within so many looks. -/
def run (b : Backend σ) (limit : Option UInt32) (wait : Watch.Surroundings τ σ) (looks : Nat) (task : Task) (t : τ)
    (w : World σ) : Option (Except ConsoleError View × World σ) :=
  match task with
  | .show sort direction => some ((showConsole sort direction).run.run b w)
  | .change command => some (command.run.run.run b w)
  | .updateFilter =>
    match refresh.run.run b w with
    | (.error e, w) => some (.error e, w)
    | (.ok _, w) => (Watch.run b limit false wait looks t w).map fun (r, _, w) => (r.map (·.view), w)

end Task

def Config.perform {σ τ : Type} (c : Config) (network : Http.Network σ) (wait : Watch.Surroundings τ σ)
    (looks : Nat) (task : Task) (t : τ) (s : σ) : Option (Except ConsoleError View × World σ) :=
  task.run ((Http.Client.ofApi c.api).backend network) c.watcher.limit wait looks t ⟨c.session, s, []⟩

structure Ending where
  status : Nat
  output : String
  errors : String
  deriving DecidableEq, Repr

namespace Ending

def ofFailure (loginOnAnyFailure : Bool) (e : ConsoleError) : Ending :=
  match e.surface loginOnAnyFailure with
  | .login => ⟨2, "", e.message ++ "\nProvide a valid token with --token or DNS_CONSOLE_TOKEN.\n"⟩
  | .notice => ⟨1, "", "Error: " ++ e.message ++ "\n"⟩

def ofResult (c : Config) (asOf : Timestamp) : Except ConsoleError View → Ending
  | .ok view => ⟨0, view.page asOf, ""⟩
  | .error e => ofFailure c.presentation.loginOnAnyFailure e

def ofRefusal : Refusal → Ending
  | .usage e => ⟨2, "", "error: " ++ e.reason.getD "unexpected or missing argument" ++ "\n"⟩
  | .config e => ⟨1, "", "Error: " ++ e.message ++ "\n"⟩

end Ending

def Config.logLines (c : Config) (task : Task) (exchanges : List Http.Exchange)
    (result : Except ConsoleError View) : List String :=
  let filter := Log.Filter.ofLevel c.logging.level
  ((Log.trail task exchanges result).filter filter.lets).map (·.line c.logging.format)

inductive Run (σ : Type) where
  | refused (r : Refusal)
  | finished (config : Config) (task : Task) (result : Except ConsoleError View) (world : World σ)
      (deliveries : List Http.Delivery)

namespace Run

variable {σ τ : Type}

def ofArguments (network : Http.Network σ) (service : Config → σ) (wait : Watch.Surroundings τ σ) (t : τ)
    (args : List String) (env : Environment) : Option (Run σ) :=
  match prepare args env with
  | .error r => some (.refused r)
  | .ok (task, c) =>
    (c.perform network.keeping wait.beside Watch.looks task t (service c, [])).map fun (result, w) =>
      .finished c task result ⟨w.session, w.service.1, w.log⟩ w.service.2.reverse

def ending (asOf : Timestamp) : Run σ → Ending
  | refused r => .ofRefusal r
  | finished c _ result .. => .ofResult c asOf result

def complaints : Run σ → List String
  | refused _ => []
  | finished c .. => Log.Filter.complaints c.logging.level

def logLines : Run σ → List String
  | refused _ => []
  | finished c task result world deliveries =>
    c.logLines task (Http.exchanges (world.calls.map (·.2)) deliveries) result

end Run

end FilterConsole
