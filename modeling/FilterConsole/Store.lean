import FilterConsole.Call

/-! A service that is a store: reads answer what is stored and accepted writes change it. It can be told which
credential to accept and which calls to fail. -/

namespace FilterConsole

structure Store where
  filters : List (Except ConsoleError Snapshot)
  cache : List CacheEntry
  queryLog : List RoundTrip
  allowList : NameSet
  overrides : Overrides
  autoUpdate : AutoUpdate
  accepted : Option String
  failures : Table ConsoleError

structure StoreChange where
  filters : Option (List (Except ConsoleError Snapshot)) := none
  cache : Option (List CacheEntry) := none
  queryLog : Option (List RoundTrip) := none
  allowList : Option NameSet := none
  overrides : Option Overrides := none
  autoUpdate : Option AutoUpdate := none
  accepted : Option (Option String) := none
  failures : List (String × Option ConsoleError) := []

def StoreChange.apply (c : StoreChange) (s : Store) : Store :=
  { filters := c.filters.getD s.filters
    cache := c.cache.getD s.cache
    queryLog := c.queryLog.getD s.queryLog
    allowList := c.allowList.getD s.allowList
    overrides := c.overrides.getD s.overrides
    autoUpdate := c.autoUpdate.getD s.autoUpdate
    accepted := c.accepted.getD s.accepted
    failures := c.failures.foldl (fun t e => match e.2 with
      | some error => t.insert e.1 error
      | none => t.erase e.1) s.failures }

namespace Store

def initial : Store :=
  ⟨[.ok ⟨⟨1000, 0⟩, 0, ∅⟩], [], [], ∅, ∅, .disabled, none, ∅⟩

/-- Why a call is not accepted. The credential is checked first. -/
def refusal? (s : Store) (c : Credential) (call : Call) : Option ConsoleError :=
  match s.accepted with
  | some secret => if secret ≠ c.secret then some .unauthorized else s.failures.get? call.name
  | none => s.failures.get? call.name

def nextFilter (s : Store) : Except ConsoleError Snapshot × Store :=
  match s.filters with
  | [] => (.error (.transport (.reported "no filter scripted")), s)
  | [last] => (last, s)
  | next :: rest => (next, { s with filters := rest })

def read (s : Store) : (f : Fetch) → Except ConsoleError f.Answer × Store
  | .filter => s.nextFilter
  | .cache => (.ok s.cache, s)
  | .queryLog => (.ok s.queryLog, s)
  | .allowList => (.ok s.allowList, s)
  | .overrides => (.ok s.overrides, s)
  | .autoUpdate => (.ok s.autoUpdate, s)

def apply (s : Store) : Write → Store
  | .rebuild => s
  | .allow domain => { s with allowList := s.allowList.insert domain () }
  | .disallow domain => { s with allowList := s.allowList.erase domain }
  | .setOverride domain address => { s with overrides := s.overrides.insert domain address }
  | .removeOverride domain => { s with overrides := s.overrides.erase domain }
  | .setAutoUpdate setting => { s with autoUpdate := setting }

def service : Service Store StoreChange where
  fetch c f s :=
    match s.refusal? c (.fetch f) with
    | some e => (.error e, s)
    | none => s.read f
  write c w s :=
    match s.refusal? c (.write w) with
    | some e => (.error e, s)
    | none => (.ok (), s.apply w)
  change := StoreChange.apply

end Store

end FilterConsole
