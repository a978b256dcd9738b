import FilterConsole.Address
import FilterConsole.AutoUpdate
import FilterConsole.CacheEntry
import FilterConsole.Latency
import FilterConsole.Snapshot

/-! What the console shows: every section of the service, ready for the page. -/

namespace FilterConsole

structure View where
  filterCreatedAt : Timestamp
  filterSize : UInt64
  hits : List HitRow
  order : HitOrder
  cache : List CacheEntry
  latencies : Table Latency
  allowList : NameSet
  overrides : Overrides
  autoUpdate : AutoUpdate
  deriving DecidableEq, Repr

def View.ofSections (order : HitOrder) (filter : Snapshot) (cache : List CacheEntry) (log : List RoundTrip)
    (allowList : NameSet) (overrides : Overrides) (autoUpdate : AutoUpdate) : View :=
  { filterCreatedAt := filter.createdAt
    filterSize := filter.size
    hits := filter.ordered order
    order
    cache := byExpiry cache
    latencies := FilterConsole.latencies log
    allowList
    overrides
    autoUpdate }

/-- The frame with its hits in another order. They go back to the order of their names first, so that ties
stand as they do after a fetch. -/
def View.resorted (v : View) (order : HitOrder) : View :=
  { v with hits := order.arrange (byDomain v.hits), order }

end FilterConsole
