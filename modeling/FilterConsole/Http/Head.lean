import FilterConsole.Text.Ascii

/-! The head of a response: a line with its status, then headers up to an empty line. -/

namespace FilterConsole.Http

open Ascii

def lineBreak : Bytes := [0x0D, 0x0A]

/-- Splits after the first line. A carriage return may end a line only together with a line feed. -/
def splitLine (bs : Bytes) : Option (Bytes × Bytes) :=
  match bs.span fun b => b != 0x0A && b != 0x0D with
  | (line, 0x0A :: rest) => some (line, rest)
  | (line, 0x0D :: 0x0A :: rest) => some (line, rest)
  | _ => none

def skipEmptyLines : Bytes → Bytes
  | 0x0D :: 0x0A :: r => skipEmptyLines r
  | 0x0A :: r => skipEmptyLines r
  | bs => bs

def isHeadByte (b : UInt8) : Bool := b == 0x09 || (0x20 ≤ b && b != 0x7F)

def isPlainByte (b : UInt8) : Bool := isHeadByte b && b < 0x80

def isBlankByte (b : UInt8) : Bool := b == 0x20 || b == 0x09

def isNameByte (b : UInt8) : Bool :=
  let c := Char.ofNat b.toNat
  c.isAlphanum || c == '\x27' || c == '\x60' || "!#$%&*+-.^_|~".toList.contains c

/-- A header, its name in small letters and its value without the blanks around it. -/
structure Header where
  name : String
  value : Bytes
  deriving DecidableEq, Repr

namespace Header

def nameLimit : Nat := 0x10000

def limit : Nat := 100

def ofLine? (line : Bytes) : Option Header := do
  let (name, rest) := line.span isNameByte
  match rest with
  | 0x3A :: value =>
    if name.isEmpty || nameLimit ≤ name.length || !value.all isHeadByte then none
    let value := value.dropWhile isBlankByte
    return ⟨((← ofUtf8? name)).toLower, (value.reverse.dropWhile isBlankByte).reverse⟩
  | _ => none

def text? (h : Header) : Option String := if h.value.all isPlainByte then ofUtf8? h.value else none

def readAll? : Nat → Bytes → Option (List Header × Bytes)
  | limit, bs => do
    let (line, rest) ← splitLine bs
    if line.isEmpty then return ([], rest)
    match limit with
    | 0 => none
    | limit + 1 =>
      let header ← ofLine? line
      let (headers, rest) ← readAll? limit rest
      return (header :: headers, rest)

end Header

/-- What a response tells before its body. The older of two versions knows fewer framings of a body. -/
structure Head where
  isOld : Bool
  status : Nat
  headers : List Header
  deriving DecidableEq, Repr

namespace Head

/-- The number that follows a version: three digits, the first of which is no zero. A reason may follow it. -/
def status? : Bytes → Option Nat
  | 0x20 :: a :: b :: c :: reason =>
    let isReason := match reason with
      | [] => true
      | blank :: text => blank == 0x20 && text.all isHeadByte
    if [a, b, c].all isDigit && a != byte '0' && isReason then some (decimalValue [a, b, c]) else none
  | _ => none

def version? (line : Bytes) : Option (Bool × Bytes) :=
  match line.splitAt 8 with
  | (version, rest) =>
    if version == utf8 "HTTP/1.1" then some (false, rest)
    else if version == utf8 "HTTP/1.0" then some (true, rest)
    else none

def read? (bs : Bytes) : Option (Head × Bytes) := do
  let (first, rest) ← splitLine (skipEmptyLines bs)
  let (isOld, afterVersion) ← version? first
  let status ← status? afterVersion
  let (headers, rest) ← Header.readAll? Header.limit rest
  return (⟨isOld, status, headers⟩, rest)

def values (h : Head) (name : String) : List (Option String) :=
  (h.headers.filter (·.name == name)).map (·.text?)

end Head

end FilterConsole.Http
