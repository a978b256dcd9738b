import FilterConsole.Config.Basic
import FilterConsole.Http.Request
import FilterConsole.Wire

/-! The service over HTTP. Each call is one request; the status decides before the body, and writes do not look at the
body at all. -/

namespace FilterConsole.Http

/-- What comes back for a request: no connection, nothing over a connection, or a response, whose body may be cut
short. -/
inductive Reply where
  | unreachable
  | nothing
  | response (status : Nat) (body : Option Bytes)
  deriving DecidableEq, Repr

abbrev Network (σ : Type) := Request → σ → Reply × σ

structure Client where
  baseUrl : String
  pathPrefix : String
  deriving DecidableEq, Repr

/-- Header values hold no control characters but tabs. -/
def isHeaderText (s : String) : Bool := (utf8 s).all fun b => b = 0x09 || (0x20 ≤ b && b ≠ 0x7F)

namespace Client

def ofApi (api : Config.Api) : Client := ⟨api.baseUrl, api.pathPrefix⟩

/-- The request of a call. There is none if the address or the credential cannot be sent. -/
def request? (client : Client) (c : Credential) (call : Call) : Option Request := do
  let url ← Url.parse? (address client.baseUrl client.pathPrefix call.endpoint.name)
  if !isHeaderText c.secret then none
  let (method, contentType, body) := call.payload
  return { method, url, authorization := "Bearer " ++ c.secret, contentType, userAgent, body }

end Client

def statusFailure? (status : Nat) (e : Endpoint) : Option ConsoleError :=
  if status = 401 then some .unauthorized
  else if 200 ≤ status && status < 300 then none
  else some (.transport (.refused status e))

def decode (body : Bytes) : (f : Fetch) → Except TransportFailure f.Answer
  | .filter => orUndecodable .filter (Json.parse? body >>= Wire.filter?)
  | .cache => orUndecodable .cache (Json.parse? body >>= Wire.cache?)
  | .queryLog => orUndecodable .instrumentation (Json.parse? body >>= Wire.queryLog?)
  | .allowList => orUndecodable .allowedDomains (Json.parse? body >>= Wire.allowList?)
  | .overrides => orUndecodable .overrides (Json.parse? body >>= Wire.octetTable?) >>= Wire.overrides
  | .autoUpdate => orUndecodable .autoUpdateFilter (Json.parse? body >>= Wire.autoUpdate?)
where
  orUndecodable {α : Type} (e : Endpoint) : Option α → Except TransportFailure α
    | some a => .ok a
    | none => .error (.undecodable e)

def readReply (f : Fetch) : Reply → Except ConsoleError f.Answer
  | .unreachable | .nothing => .error (.transport (.notDelivered f.endpoint))
  | .response status body =>
    match statusFailure? status f.endpoint, body with
    | some e, _ => .error e
    | none, none => .error (.transport (.notDelivered f.endpoint))
    | none, some body => (decode body f).mapError .transport

def writeReply (w : Write) : Reply → Except ConsoleError Unit
  | .unreachable | .nothing => .error (.transport (.notDelivered w.endpoint))
  | .response status _ =>
    match statusFailure? status w.endpoint with
    | some e => .error e
    | none => .ok ()

def send {σ : Type} (network : Network σ) (request : Option Request) (s : σ) : Reply × σ :=
  match request with
  | some r => network r s
  | none => (.unreachable, s)

def Client.backend {σ : Type} (client : Client) (network : Network σ) : Backend σ where
  fetch c f s :=
    let (reply, s) := send network (client.request? c (.fetch f)) s
    (readReply f reply, s)
  write c w s :=
    let (reply, s) := send network (client.request? c (.write w)) s
    (writeReply w reply, s)

end FilterConsole.Http
