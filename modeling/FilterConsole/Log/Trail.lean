import FilterConsole.CommandLine.Basic
import FilterConsole.Http.Exchange
import FilterConsole.Log.Event

/-! The trail of a task: the events that its exchanges with the service and its end leave behind. -/

namespace FilterConsole

namespace Log

def operationOrigin (path : String) : String := "dns_console_application::use_cases::" ++ path

def interfaceOrigin (path : String) : String := "dns_console_infrastructure::http::" ++ path

def membershipOrigin : String := operationOrigin "allow_list::set_membership"

def setOverrideOrigin : String := operationOrigin "overrides::set_override"

def removeOverrideOrigin : String := operationOrigin "overrides::remove_override"

def autoUpdateOrigin : String := operationOrigin "auto_update::set_auto_update"

def programOrigin : String := "dns_console"

def sessionOrigin : String := "dns_console_application::session"

def refreshSpan : Span := ⟨operationOrigin "console::refresh", []⟩

def watchSpan : Span := ⟨operationOrigin "filter_update::watch_update", []⟩

end Log

open Log

def Command.span : Command → Span
  | allow domain => ⟨membershipOrigin, [("domain", .text domain), ("present", .flag true)]⟩
  | disallow domain => ⟨membershipOrigin, [("domain", .text domain), ("present", .flag false)]⟩
  | setOverride domain address =>
    ⟨setOverrideOrigin, [("domain", .text domain),
      ("address", .text ("OverrideAddress(" ++ octetList address.octets ++ ")"))]⟩
  | removeOverride domain => ⟨removeOverrideOrigin, [("domain", .text domain)]⟩
  | setAutoUpdate .disabled => ⟨autoUpdateOrigin, [("config", .text "Disabled")]⟩
  | setAutoUpdate (.every seconds) =>
    ⟨autoUpdateOrigin, [("config", .text ("Every \x7b interval: " ++ numeral seconds.toNat ++ " \x7d"))]⟩

def Task.spans : Task → List Span
  | .show .. => []
  | .change command => [command.span]
  | .updateFilter => [watchSpan]

namespace Log

def started : Event := ⟨.info, programOrigin ++ "::bootstrap", "DNS console v0.3.0", ["base_url"], []⟩

def connectionOrigin (path : String) : String := "hyper_util::client::legacy::" ++ path

/-- Each request that is sent asks for a connection of its own. A host that goes by a name has to be looked up. -/
def requested (scope : List Span) (host : Http.Host) : List Event :=
  let connecting : Event := ⟨.debug, connectionOrigin "connect::http", "connecting to", [], scope⟩
  let search : List Event := match host with
    | .name s =>
      ⟨.debug, connectionOrigin "connect::dns", "resolving host", [], []⟩ ::
        if s = "localhost" then [connecting] else []
    | _ => [connecting]
  [⟨.trace, connectionOrigin "pool", "checkout waiting for idle connection", [], scope⟩,
    ⟨.debug, "reqwest::connect", "starting new connection",
      ["log.target", "log.module_path", "log.file", "log.line"], scope⟩,
    ⟨.trace, connectionOrigin "connect::http", "Http::connect", [], scope⟩] ++ search

def delivered (scope : List Span) : Option Http.Delivery → List Event
  | none => []
  | some (r, .unreachable) => requested scope r.url.host
  | some (r, _) => requested scope r.url.host ++
    [⟨.debug, connectionOrigin "connect::http", "connected to", [], scope⟩,
      ⟨.trace, connectionOrigin "client", "http1 handshake complete", [], scope⟩]

def rejected {α : Type} (scope : List Span) : Except ConsoleError α → List Event
  | .error .unauthorized => [⟨.warn, sessionOrigin, "Credential rejected; clearing stored credential", [], scope⟩]
  | _ => []

/-- A whole body is an event before it is looked into. -/
def received (scope : List Span) (f : Fetch) : Http.Reply → List Event
  | .response status (some _) =>
    if (Http.statusFailure? status f.endpoint).isSome then []
    else [⟨.debug, interfaceOrigin "client", "API read completed", ["endpoint", "bytes"], scope⟩]
  | _ => []

def leftOut (scope : List Span) (body : Bytes) : List Event :=
  match Json.parse? body >>= Wire.records? with
  | some records =>
    if records.contains none then [⟨.debug, interfaceOrigin "wire",
      "Instrumentation entries without both timestamps dropped", ["dropped"], scope⟩]
    else []
  | none => []

def fetched (scope : List Span) : Fetch → List Event
  | .filter =>
    [⟨.debug, refreshSpan.origin, "Fetched filter snapshot", ["size", "hits", "created_at"], scope⟩]
  | .cache => [⟨.debug, refreshSpan.origin, "Fetched cache", ["entries"], scope⟩]
  | .queryLog => [⟨.debug, refreshSpan.origin, "Fetched instrumentation log", ["records"], scope⟩]
  | .allowList | .overrides => []
  | .autoUpdate =>
    [⟨.info, refreshSpan.origin, "Console refreshed", ["hits", "cache_entries", "resolvers"], scope⟩]

def ofFetch (scope : List Span) (f : Fetch) (x : Http.Exchange) : List Event :=
  let answer := Http.readReply f x.reply
  let omissions := match f, x.reply with
    | .queryLog, .response _ (some body) => leftOut scope body
    | _, _ => []
  let success := match answer with
    | .ok _ => omissions ++ fetched scope f
    | .error _ => []
  delivered scope x.sent ++ received scope f x.reply ++ success ++ rejected scope answer

def written (scope : List Span) : Write → List Event
  | .rebuild => []
  | .allow _ | .disallow _ =>
    [⟨.info, membershipOrigin, "Allow-list updated", ["domain", "present"], scope⟩]
  | .setOverride .. => [⟨.info, setOverrideOrigin, "Override set", ["domain", "address"], scope⟩]
  | .removeOverride _ => [⟨.info, removeOverrideOrigin, "Override removed", ["domain"], scope⟩]
  | .setAutoUpdate _ => [⟨.info, autoUpdateOrigin, "Auto-update configured", ["auto_update"], scope⟩]

def ofWrite (scope : List Span) (w : Write) (x : Http.Exchange) : List Event :=
  let announcement : List Event := match w with
    | .rebuild => [⟨.info, watchSpan.origin, "Requesting filter rebuild", ["seen_created_at"], scope⟩]
    | _ => []
  let answer := Http.writeReply w x.reply
  let success := match answer with
    | .ok () =>
      ⟨.debug, interfaceOrigin "client", "API write acknowledged", ["endpoint", "method"], scope⟩ :: written scope w
    | .error _ => []
  announcement ++ delivered scope x.sent ++ success ++ rejected scope answer

/-- The events of exchanges. Reads belong to a refresh; from a write on everything is inside the task's own spans. -/
def ofExchanges (own : List Span) : List Span → List Http.Exchange → List Event
  | _, [] => []
  | outer, x :: rest =>
    match x.call with
    | .fetch f => ofFetch (outer ++ [refreshSpan]) f x ++ ofExchanges own outer rest
    | .write w => ofWrite own w x ++ ofExchanges own own rest

def ofEnd : Task → Except ConsoleError View → List Event
  | .show (some _) none, .ok _ => [⟨.debug, sessionOrigin, "Sort toggled", ["field", "direction"], []⟩]
  | .updateFilter, .ok _ =>
    [⟨.info, watchSpan.origin, "Filter rebuild visible", ["polls", "created_at"], [watchSpan]⟩,
      ⟨.info, programOrigin, "Filter update visible", ["polls"], []⟩]
  | .updateFilter, .error (.timeout _) =>
    [⟨.warn, watchSpan.origin, "Filter rebuild not visible before poll limit", ["polls"], [watchSpan]⟩]
  | .updateFilter, .error .cancelled =>
    [⟨.warn, programOrigin, "Interrupted, abandoning filter update", [], []⟩,
      ⟨.info, watchSpan.origin, "Filter update watch cancelled", ["polls"], [watchSpan]⟩]
  | _, _ => []

def trail (task : Task) (exchanges : List Http.Exchange) (result : Except ConsoleError View) : List Event :=
  started :: (ofExchanges task.spans [] exchanges ++ ofEnd task result)

end Log

end FilterConsole
