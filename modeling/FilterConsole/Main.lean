import FilterConsole.Console
import FilterConsole.Http.Message
import Std.Async.DNS
import Std.Async.Select
import Std.Async.Signal
import Std.Async.TCP
import Std.Async.Timer

/-! The program: arguments, environment and files come in, requests go out, a page or an error is printed. -/

namespace FilterConsole.Program

def perform {α : Type} (call : Credential → Call → IO Http.Reply) :
    Program α → Session → IO (α × Session)
  | done a, s => pure (a, s)
  | access change next, s => (next s).perform call (change s)
  | fetch c f next, s => do
    let reply ← call c (.fetch f)
    (next (Http.readReply f reply)).perform call s
  | write c w next, s => do
    let reply ← call c (.write w)
    (next (Http.writeReply w reply)).perform call s

end FilterConsole.Program

namespace FilterConsole.Main

open Std.Async

abbrev Deadline := Nat

def sleepUntil (deadline : Deadline) : Async Sleep := do
  let now ← IO.monoMsNow
  Sleep.mk (.ofNat (deadline - now))

/-- All that comes over a connection before it is closed, or nothing if it is not closed in time. -/
partial def receive (socket : TCP.Socket.Client) (deadline : Deadline) (done : ByteArray) :
    Async (Option ByteArray) := do
  let sleep ← sleepUntil deadline
  let chunk ← Selectable.one #[
    .case (socket.recvSelector 65536) fun chunk => return some chunk,
    .case sleep.selector fun _ => return none]
  match chunk with
  | none => return none
  | some none => return some done
  | some (some chunk) => receive socket deadline (done ++ chunk)

def connect? (url : Http.Url) : Async (Option TCP.Socket.Client) := do
  if url.secure then return none
  try
    match (← DNS.getAddrInfo url.host.text "" (some .ipv4)).toList with
    | .v4 addr :: _ =>
      let socket ← TCP.Socket.Client.mk
      socket.connect (.v4 ⟨addr, url.socket⟩)
      return some socket
    | _ => return none
  catch _ => return none

def exchange (timeoutSecs : UInt64) (r : Http.Request) : Async Http.Reply := do
  let deadline := (← IO.monoMsNow) + timeoutSecs.toNat * 1000
  match ← connect? r.url with
  | none => return .unreachable
  | some socket =>
    try
      socket.send ⟨r.bytes.toArray⟩
      match ← receive socket deadline .empty with
      | some bytes => return .ofBytes bytes.toList
      | none => return .nothing
    catch _ => return .nothing

def pause (policy : WatchPolicy) (interrupt : Signal.Waiter) : IO Watch.Wake := Async.block do
  let sleep ← Sleep.mk (.ofNat policy.waitMs)
  Selectable.one #[
    .case sleep.selector fun _ => return .elapsed,
    .case interrupt.selector fun _ => return .cancelled]

partial def follow (perform : Program Watch.Phase → Session → IO (Watch.Phase × Session)) (policy : WatchPolicy)
    (interrupt : Signal.Waiter) : Watch.Phase → Session → IO (Except ConsoleError UpdateOutcome)
  | .finished r, _ => return r
  | .waiting w, s => do
    let (phase, s) ← match ← pause policy interrupt with
      | .elapsed => perform (Watch.poll policy.limit w) s
      | .cancelled => perform Watch.cancel s
    follow perform policy interrupt phase s

def call (api : Config.Api) (kept : IO.Ref (List Http.Exchange)) (c : Credential) (call : Call) :
    IO Http.Reply := do
  let sent ← ((Http.Client.ofApi api).request? c call).mapM fun r => do
    return (r, ← Async.block (exchange api.timeoutSecs r))
  let made : Http.Exchange := ⟨call, sent⟩
  kept.modify (made :: ·)
  return made.reply

def runTask (config : Config) (task : Task) (kept : IO.Ref (List Http.Exchange)) :
    IO (Except ConsoleError View) := do
  let call := call config.api kept
  let session := config.session
  match task with
  | .show sort direction => (·.1) <$> (showConsole sort direction).run.perform call session
  | .change command => (·.1) <$> command.run.run.perform call session
  | .updateFilter =>
    match ← refresh.run.perform call session with
    | (.error e, _) => return .error e
    | (.ok _, session) =>
      let interrupt ← Signal.Waiter.mk .sigint false
      let policy := config.watchPolicy
      let (phase, session) ← (Watch.start policy.limit false).perform call session
      let result ← follow (fun p s => p.perform call s) policy interrupt phase session
      return result.map (·.view)

def leadsSomewhere (path : String) : IO Bool := do
  try
    let _ ← IO.FS.realPath path
    return true
  catch _ => return false

def fileProblem (leads : Bool) : IO.Error → FileProblem
  | .noFileOrDirectory .. => .notFound
  | .inappropriateType _ 21 _ => .isDirectory
  | .inappropriateType _ 20 _ => .notDirectory
  | e => if leads then .unreadable (toString e) else .other (toString e)

def readFile (path : String) : IO (Except FileProblem Bytes) := do
  try return .ok (← IO.FS.readBinFile path).toList
  catch e => return .error (fileProblem (← leadsSomewhere path) e)

def readFiles (configPath : Option String) : IO Files := do
  let contents ← (configPath.toList ++ Config.usualPaths).mapM fun path => do return (path, ← readFile path)
  return fun path => (contents.lookup path).getD (.error .notFound)

def now : IO Timestamp := do
  let t ← Std.Time.Timestamp.now
  return .ofSecs (.ofNat t.toSecondsSinceUnixEpoch.toInt.toNat)

def finish (e : Ending) : IO UInt32 := do
  IO.print e.output
  IO.eprint e.errors
  return .ofNat e.status

end FilterConsole.Main

open FilterConsole in
def main (args : List String) : IO UInt32 := do
  let token ← IO.getEnv "DNS_CONSOLE_TOKEN"
  let configPath := match CommandLine.parse args token with
    | .ok invocation => invocation.configPath
    | .error _ => none
  match prepare args ⟨← Main.readFiles configPath, token⟩ with
  | .error refusal => Main.finish (.ofRefusal refusal)
  | .ok (task, config) =>
    for line in Log.Filter.complaints config.logging.level do IO.eprintln line
    let kept ← IO.mkRef []
    let result ← Main.runTask config task kept
    for line in config.logLines task (← kept.get).reverse result do IO.eprintln line
    Main.finish (.ofResult config (← Main.now) result)
