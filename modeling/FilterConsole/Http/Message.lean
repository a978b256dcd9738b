import FilterConsole.Http.Body
import FilterConsole.Http.Client

/-! Requests and responses as bytes on a connection that is closed after one response. -/

namespace FilterConsole.Http

def headBytes (lines : List String) : Bytes :=
  lines.flatMap (fun l => utf8 l ++ lineBreak) ++ lineBreak

def Request.bytes (r : Request) : Bytes :=
  let content := match r.contentType with
    | some type => ["content-type: " ++ type, "content-length: " ++ numeral r.body.length]
    | none => []
  headBytes ([r.method.name ++ " " ++ r.url.target ++ " HTTP/1.1",
    "host: " ++ r.url.host.text ++ ":" ++ numeral r.url.socket.toNat,
    "authorization: " ++ r.authorization,
    "user-agent: " ++ r.userAgent,
    "accept: */*",
    "connection: close"] ++ content) ++ r.body

def isAnnouncement (status : Nat) : Bool := status < 200 && status != 101

def Reply.read? : Nat → Bytes → Option Reply
  | 0, _ => none
  | n + 1, bs => do
    let (head, rest) ← Head.read? bs
    if isAnnouncement head.status then read? n rest
    else
      let framing ← Framing.ofHead? head
      return .response head.status (framing.body? rest)

def Reply.ofBytes (bs : Bytes) : Reply := (read? (bs.length + 1) bs).getD .nothing

end FilterConsole.Http
