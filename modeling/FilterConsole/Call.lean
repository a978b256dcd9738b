import FilterConsole.Address
import FilterConsole.AutoUpdate
import FilterConsole.CacheEntry
import FilterConsole.Credential
import FilterConsole.Latency
import FilterConsole.Snapshot

/-! The calls that the console makes to the service: six reads, each with its kind of answer, and six writes, which
answer nothing. -/

namespace FilterConsole

inductive Fetch where
  | filter
  | cache
  | queryLog
  | allowList
  | overrides
  | autoUpdate
  deriving DecidableEq, Repr

abbrev Fetch.Answer : Fetch → Type
  | filter => Snapshot
  | cache => List CacheEntry
  | queryLog => List RoundTrip
  | allowList => NameSet
  | overrides => Overrides
  | autoUpdate => AutoUpdate

inductive Write where
  | rebuild
  | allow (domain : String)
  | disallow (domain : String)
  | setOverride (domain : String) (address : Address)
  | removeOverride (domain : String)
  | setAutoUpdate (setting : AutoUpdate)
  deriving DecidableEq, Repr

inductive Call where
  | fetch (f : Fetch)
  | write (w : Write)
  deriving DecidableEq, Repr

def Call.name : Call → String
  | fetch .filter => "fetch_filter"
  | fetch .cache => "fetch_cache"
  | fetch .queryLog => "fetch_instrumentation"
  | fetch .allowList => "fetch_allow_list"
  | fetch .overrides => "fetch_overrides"
  | fetch .autoUpdate => "fetch_auto_update"
  | write .rebuild => "trigger_filter_rebuild"
  | write (.allow _) => "add_allowed_domain"
  | write (.disallow _) => "remove_allowed_domain"
  | write (.setOverride ..) => "set_override"
  | write (.removeOverride _) => "remove_override"
  | write (.setAutoUpdate _) => "set_auto_update"

/-- A service with states `σ`. It answers each call by the credential presented and may change its state. -/
structure Backend (σ : Type) where
  fetch : Credential → (f : Fetch) → σ → Except ConsoleError f.Answer × σ
  write : Credential → Write → σ → Except ConsoleError Unit × σ

/-- A service that also changes otherwise than by calls. -/
structure Service (σ δ : Type) extends Backend σ where
  change : δ → σ → σ

end FilterConsole
