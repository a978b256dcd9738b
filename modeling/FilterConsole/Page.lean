import FilterConsole.Calendar
import FilterConsole.Text.Column
import FilterConsole.View

/-! The console's page: a view as lines of text, section by section, with an empty line after each but the last. -/

namespace FilterConsole

def HitOrder.mark (o : HitOrder) (field : SortField) : String :=
  if o.field = field then
    match o.direction with
    | .asc => " ▲"
    | .desc => " ▼"
  else ""

def hitLine (width : Nat) (domain count updated : String) : String :=
  alignLeft width domain ++ "  " ++ alignRight 8 count ++ "  " ++ updated

def resolverLine (width : Nat) (resolver average samples : String) : String :=
  alignLeft width resolver ++ "  " ++ alignRight 12 average ++ "  " ++ alignRight 8 samples

namespace View

def filterLines (v : View) : List String :=
  let width := columnWidth "Domain" (v.hits.map (·.domain))
  ("Filter: " ++ numeral v.filterSize.toNat ++ " domains, built " ++ v.filterCreatedAt.text) ::
    hitLine width "Domain" ("Count" ++ v.order.mark .count) ("Last updated" ++ v.order.mark .updatedAt) ::
    v.hits.map fun h => hitLine width h.domain (numeral h.count.toNat) h.lastUpdated.text

def cacheLines (v : View) : List String :=
  let width := columnWidth "Name" (v.cache.map (·.name))
  ("Cache: " ++ numeral v.cache.length ++ " entries") ::
    v.cache.map fun e => alignLeft width e.name ++ "  valid until " ++ e.validUntil.text

def resolverLines (v : View) : List String :=
  let width := columnWidth "Resolver" v.latencies.keys
  "Resolvers:" :: resolverLine width "Resolver" "Avg (ms)" "Samples" ::
    v.latencies.entries.map fun e => resolverLine width e.1 (e.2.average.fixedText 3) (numeral e.2.samples)

def allowListLines (v : View) : List String :=
  ("Allowed domains (" ++ numeral v.allowList.size ++ "):") :: v.allowList.keys.map ("  " ++ ·)

def overrideLines (v : View) : List String :=
  ("Overrides (" ++ numeral v.overrides.size ++ "):") ::
    v.overrides.entries.map fun e => "  " ++ e.1 ++ " -> " ++ e.2.text

def autoUpdateLine (v : View) : String :=
  "Auto update: " ++
    if v.autoUpdate.isEnabled then v.autoUpdate.text
    else "disabled (enable with `auto-update set <seconds>`)"

def lines (v : View) (asOf : Timestamp) : List String :=
  v.filterLines ++ [""] ++ v.cacheLines ++ [""] ++ v.resolverLines ++ [""] ++ v.allowListLines ++ [""] ++
    v.overrideLines ++ [""] ++ [v.autoUpdateLine, "As of " ++ asOf.text]

def page (v : View) (asOf : Timestamp) : String :=
  String.join ((v.lines asOf).map (· ++ "\n"))

end View

end FilterConsole
