import FilterConsole.Call
import FilterConsole.Endpoint
import FilterConsole.Http.Url
import FilterConsole.Json.Writer

/-! The request of each call: method, resource and body. -/

namespace FilterConsole

def Fetch.endpoint : Fetch → Endpoint
  | filter => .filter
  | cache => .cache
  | queryLog => .instrumentation
  | allowList => .allowedDomains
  | overrides => .overrides
  | autoUpdate => .autoUpdateFilter

def Write.endpoint : Write → Endpoint
  | rebuild => .updateFilter
  | allow _ | disallow _ => .allowedDomains
  | setOverride .. | removeOverride _ => .overrides
  | setAutoUpdate _ => .autoUpdateFilter

def Write.body : Write → Json
  | rebuild => .object []
  | allow domain | disallow domain | removeOverride domain => .object [(utf8 "name", .ofText domain)]
  | setOverride domain address =>
    .object [(utf8 "name", .ofText domain), (utf8 "address", .array (address.octets.map fun o => .integer o.toNat))]
  | setAutoUpdate setting =>
    match setting.toWire with
    | none => .null
    | some seconds => .integer seconds.toNat

namespace Http

inductive Method where
  | get
  | post
  | delete
  deriving DecidableEq, Repr

def Method.name : Method → String
  | get => "GET"
  | post => "POST"
  | delete => "DELETE"

/-- A request as it is sent. Only requests with a body have a content type. -/
structure Request where
  method : Method
  url : Url
  authorization : String
  contentType : Option String
  userAgent : String
  body : Bytes
  deriving DecidableEq, Repr

def userAgent : String := "dns-console/0.3.0"

end Http

def Write.method : Write → Http.Method
  | disallow _ | removeOverride _ => .delete
  | _ => .post

def Call.endpoint : Call → Endpoint
  | fetch f => f.endpoint
  | write w => w.endpoint

def Call.payload : Call → Http.Method × Option String × Bytes
  | fetch _ => (.get, none, [])
  | write w => (w.method, some "application/json", w.body.write)

end FilterConsole
