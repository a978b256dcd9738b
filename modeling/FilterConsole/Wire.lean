import FilterConsole.Address
import FilterConsole.AutoUpdate
import FilterConsole.CacheEntry
import FilterConsole.Json.Reader
import FilterConsole.Json.Shape
import FilterConsole.Latency
import FilterConsole.Snapshot

/-! What the service answers, read out of JSON. A body that is no JSON text or has another shape is refused whole. -/

namespace FilterConsole.Wire

open Json

def timestamp? (v : Json) : Option Timestamp := do
  match ← v.fields? ["secs_since_epoch", "nanos_since_epoch"] 2 with
  | [some secs, some nanos] => return ⟨← secs.int64?, ← nanos.word32?⟩
  | _ => none

def hitCounter? : Json → Option HitCounter
  | .array [count, lastUpdated] => do return ⟨← count.word64?, ← timestamp? lastUpdated⟩
  | _ => none

/-- The hits lie two levels down; at each level they may be absent. -/
def statistics? (v : Json) : Option (Table HitCounter) := do
  match ← v.fields? ["data"] 0 with
  | [data] => data.elim (some ∅) fun data => do
    match ← data.fields? ["data"] 0 with
    | [hits] => orElse? (table? hitCounter?) ∅ hits
    | _ => none
  | _ => none

def filter? (v : Json) : Option Snapshot := do
  match ← v.fields? ["created_at", "size", "statistics"] 1 with
  | [some createdAt, size, statistics] =>
    return ⟨← timestamp? createdAt, ← orElse? word64? 0 size, ← orElse? statistics? ∅ statistics⟩
  | _ => none

def cacheEntry? (v : Json) : Option CacheEntry := do
  match ← v.fields? ["valid_until", "message"] 2 with
  | [some validUntil, some message] =>
    match ← message.fields? ["name"] 1 with
    | [some name] => return ⟨← name.text?, .ofSecs (← validUntil.word64?)⟩
    | _ => none
  | _ => none

def listIn? {α : Type} (name : String) (item? : Json → Option α) (v : Json) : Option (List α) := do
  match ← v.fields? ["data"] 1 with
  | [some data] =>
    match ← data.fields? [name] 0 with
    | [items] => orElse? (list? item?) [] items
    | _ => none
  | _ => none

def cache? (v : Json) : Option (List CacheEntry) := listIn? "data" cacheEntry? v

def roundTrip? (v : Json) : Option (Option RoundTrip) := do
  match ← v.fields? ["resolver", "request_sent", "request_received"] 1 with
  | [resolver, sent, received] =>
    let resolver ← orElse? (nullable? text?) none resolver
    let sent ← orElse? (nullable? timestamp?) none sent
    let received ← orElse? (nullable? timestamp?) none received
    return do return ⟨resolver, ← sent, ← received⟩
  | _ => none

def records? (v : Json) : Option (List (Option RoundTrip)) := listIn? "container" roundTrip? v

def queryLog? (v : Json) : Option (List RoundTrip) := (records? v).map (·.filterMap id)

def allowList? (v : Json) : Option NameSet := (list? text? v).map NameSet.ofNames

def octetTable? (v : Json) : Option (Table (List UInt8)) := table? (list? octet?) v

def override (domain : String) (octets : List UInt8) : Except TransportFailure Address :=
  match Address.ofOctets octets with
  | .ok address => .ok address
  | .error _ => .error (.malformedOverride domain octets)

def overrides (octets : Table (List UInt8)) : Except TransportFailure Overrides := do
  return .ofList (← octets.entries.mapM fun e => return (e.1, ← override e.1 e.2))

def autoUpdate? (v : Json) : Option AutoUpdate := (nullable? word64? v).map AutoUpdate.ofWire

end FilterConsole.Wire
