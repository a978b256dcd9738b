import FilterConsole.Http.Message
import FilterConsole.Table
import FilterConsole.Watch

/-! A server that answers from a script and keeps the requests it has received. -/

namespace FilterConsole.Http

structure Response where
  status : Nat := 200
  body : Bytes := []
  drop : Bool := false
  truncate : Bool := false
  delayMs : Nat := 0
  deriving DecidableEq, Repr

/-- The responses to come by method and resource, and the requests received, latest first. Requests elsewhere than to
the host and socket of the server find nobody, and no reply comes after the time limit. -/
structure ScriptedServer where
  host : Address
  socket : UInt16
  timeoutSecs : UInt64
  script : Table (List Response)
  received : List Request

namespace ScriptedServer

def key (r : Request) : String :=
  r.method.name ++ " " ++ String.ofList ((splitOn '/' r.url.target.toList).getLastD [])

def usualBody (key : String) : Bytes :=
  match key with
  | "GET filter" => utf8 "\x7b\"created_at\":\x7b\"secs_since_epoch\":1000,\"nanos_since_epoch\":0\x7d\x7d"
  | "GET cache" | "GET instrumentation" => utf8 "\x7b\"data\":\x7b\x7d\x7d"
  | "GET allowed-domains" => utf8 "[]"
  | "GET overrides" => utf8 "\x7b\x7d"
  | "GET auto-update-filter" => utf8 "null"
  | _ => []

def next (s : ScriptedServer) (key : String) : Response × ScriptedServer :=
  match s.script.get? key with
  | some [last] => (last, s)
  | some (r :: rest) => (r, { s with script := s.script.insert key rest })
  | _ => ({ body := usualBody key }, s)

/-- The reply that a response makes. A status has three digits. Responses of some statuses have no body; one below 200
only announces another one, which its body may hold. -/
def reply (timeoutSecs : UInt64) (r : Response) : Reply :=
  if r.drop || timeoutSecs.toNat * 1000 ≤ r.delayMs || r.status < 100 || 1000 ≤ r.status then .nothing
  else if r.status < 200 && r.status ≠ 101 then .ofBytes r.body
  else if r.status = 204 || r.status = 304 then .response r.status (some [])
  else .response r.status (if r.truncate then none else some r.body)

def network : Network ScriptedServer := fun r s =>
  if r.url.secure || r.url.host ≠ .v4 s.host || r.url.socket ≠ s.socket then (.unreachable, s)
  else
    let (response, s) := s.next (key r)
    (reply s.timeoutSecs response, { s with received := r :: s.received })

/-- Waits beside a scripted server. The operator interrupts a wait once so many requests have come. -/
def waits (interruptAfter : Option Nat) : Watch.Surroundings Unit ScriptedServer := fun t w =>
  match interruptAfter with
  | some n => (if n ≤ w.service.received.length then .cancelled else .elapsed, t, w)
  | none => (.elapsed, t, w)

def requests (s : ScriptedServer) : List Request := s.received.reverse

end ScriptedServer

end FilterConsole.Http
