/-! The resources of the filtering service's management interface. -/

namespace FilterConsole

inductive Endpoint where
  | filter
  | updateFilter
  | cache
  | instrumentation
  | allowedDomains
  | overrides
  | autoUpdateFilter
  deriving DecidableEq, Repr

def Endpoint.name : Endpoint → String
  | filter => "filter"
  | updateFilter => "update-filter"
  | cache => "cache"
  | instrumentation => "instrumentation"
  | allowedDomains => "allowed-domains"
  | overrides => "overrides"
  | autoUpdateFilter => "auto-update-filter"

end FilterConsole
