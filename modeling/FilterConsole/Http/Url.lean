import FilterConsole.Http.Host

/-! Addresses of HTTP, plain or secure. The address of a resource joins a base address, a path below it and a name;
what goes into a request is its host, the socket there and an escaped path. -/

namespace FilterConsole.Http

def isSlash (c : Char) : Bool := c == '/'

def apiRoot (base pathPrefix : String) : String :=
  let base := stripEnd isSlash (strip isBlank base.toList)
  let path := strip isSlash (strip isBlank pathPrefix.toList)
  String.ofList (if path.isEmpty then base else base ++ '/' :: path)

def address (base pathPrefix name : String) : String := apiRoot base pathPrefix ++ "/" ++ name

structure Url where
  secure : Bool
  host : Host
  socket : UInt16
  target : String
  deriving DecidableEq, Repr

def percent (b : UInt8) : List Char :=
  '%' :: (Nat.toDigits 16 (b.toNat / 16) ++ Nat.toDigits 16 (b.toNat % 16)).map Char.toUpper

/-- Visible ASCII characters stand for themselves, but for some; of every other one the bytes are escaped. -/
def escape (reserved : List Char) (cs : List Char) : List Char :=
  cs.flatMap fun c =>
    if '\x21' ≤ c && c ≤ '\x7e' && !reserved.contains c then [c]
    else (utf8 (String.singleton c)).flatMap percent

def pathReserved : List Char := ['"', '#', '<', '>', '?', '\x60', '\x7b', '\x7d']

def queryReserved : List Char := ['"', '#', '<', '>', '\x27']

def isHere (segment : String) : Bool := segment == "." || segment.toLower == "%2e"

def isAbove (segment : String) : Bool :=
  ["..", ".%2e", "%2e.", "%2e%2e"].contains segment.toLower

/-- A letter and a colon or a bar name a drive; the way up does not lead out of it. -/
def isDrive (segment : String) : Bool :=
  match segment.toList with
  | [letter, mark] => letter.isAlpha && (mark == ':' || mark == '|')
  | _ => false

def above : List String → List String
  | [] => []
  | s :: done => if isDrive s then s :: done else done

def resolve (done : List String) : List String → List String
  | [] => done.reverse
  | s :: rest =>
    if isAbove s then resolve (if rest.isEmpty then "" :: above done else above done) rest
    else if isHere s then resolve (if rest.isEmpty then "" :: done else done) rest
    else resolve (s :: done) rest

def pathTarget (path : List Char) : List Char :=
  let segments := splitOn '/' (path.map fun c => if c == '\\' then '/' else c)
  let segments := match segments with
    | [] :: r :: rest => r :: rest
    | segments => segments
  (resolve [] (segments.map String.ofList)).flatMap fun s => '/' :: escape pathReserved s.toList

def usualSocket (secure : Bool) : UInt16 := if secure then 443 else 80

def socket? (secure : Bool) (cs : List Char) : Option UInt16 :=
  if cs.isEmpty then some (usualSocket secure)
  else (readDigits? cs).bind fun n => if n < 0x10000 then some (.ofNat n) else none

def splitSocket : Bool → List Char → List Char × List Char
  | _, [] => ([], [])
  | inside, c :: cs =>
    if c == ':' && !inside then ([], c :: cs)
    else
      let (host, socket) := splitSocket ((inside || c == '[') && c != ']') cs
      (c :: host, socket)

def authority? (secure : Bool) (cs : List Char) : Option (Host × UInt16) := do
  let (host, socket) := splitSocket false ((splitOn '@' cs).getLastD [])
  return (← Host.ofText? host, ← socket? secure socket.tail)

def scheme? (cs : List Char) : Option (Bool × List Char) := do
  let (scheme, rest) := cs.span (· != ':')
  let secure ← match (String.ofList scheme).toLower with
    | "http" => some false
    | "https" => some true
    | _ => none
  match rest with
  | [] => none
  | _ :: rest => return (secure, rest.dropWhile fun c => c == '/' || c == '\\')

namespace Url

def schemeName (secure : Bool) : String := if secure then "https" else "http"

def text (u : Url) : String :=
  let socket := if u.socket = usualSocket u.secure then "" else ":" ++ numeral u.socket.toNat
  schemeName u.secure ++ "://" ++ u.host.text ++ socket ++ u.target

def lengthLimit : Nat := 0xFFFE

/-- Reads an address. Control characters and spaces around it, line breaks and tabs inside it and a fragment at its end
count for nothing. -/
def parse? (s : String) : Option Url := do
  let cs := (strip (· ≤ ' ') s.toList).filter fun c => c != '\t' && c != '\n' && c != '\r'
  let (secure, rest) ← scheme? (cs.takeWhile (· != '#'))
  let endsAuthority (c : Char) : Bool := c == '/' || c == '\\' || c == '?'
  let (host, socket) ← authority? secure (rest.takeWhile fun c => !endsAuthority c)
  let rest := rest.dropWhile fun c => !endsAuthority c
  let query := rest.dropWhile (· != '?')
  let path := pathTarget (rest.takeWhile (· != '?'))
  let url : Url := ⟨secure, host, socket, String.ofList (path ++ match query with
    | [] => []
    | c :: r => c :: escape queryReserved r)⟩
  if lengthLimit < url.text.length then none else return url

end Url

end FilterConsole.Http
