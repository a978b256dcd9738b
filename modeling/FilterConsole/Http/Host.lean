import FilterConsole.Address
import FilterConsole.Text.Ascii
import FilterConsole.Text.Punycode

/-! Hosts: numeric addresses in their many spellings, and names. -/

namespace FilterConsole.Http

open Ascii

inductive Host where
  | v4 (a : Address)
  | v6 (groups : List Nat)
  | name (s : String)
  deriving DecidableEq, Repr

namespace Host

def hexText (n : Nat) : String := .ofList (Nat.toDigits 16 n)

def text : Host → String
  | v4 a => a.text
  | v6 groups => "[" ++ String.intercalate ":" (groups.map hexText) ++ "]"
  | name s => s

def value? (base : Nat) (cs : List Char) : Option Nat :=
  cs.foldlM (fun n c => do
    let d ← if c.toNat < 128 then hexValue? (byte c) else none
    if d < base then some (n * base + d) else none) 0

def number? : List Char → Option Nat
  | [] => none
  | '0' :: 'x' :: cs => value? 16 cs
  | ['0'] => some 0
  | '0' :: cs => value? 8 cs
  | cs => value? 10 cs

def numberParts (cs : List Char) : List (List Char) :=
  let parts := splitOn '.' cs
  if parts.getLast? == some [] then parts.dropLast else parts

def endsInNumber (cs : List Char) : Bool :=
  match (numberParts cs).getLast? with
  | some last => (!last.isEmpty && last.all Char.isDigit) || (number? last).isSome
  | none => false

/-- An address of up to four numbers. All but the last one are octets, and that one fills the rest. -/
def address? (cs : List Char) : Option Address := do
  let numbers ← (numberParts cs).mapM number?
  let last ← numbers.getLast?
  let octets := numbers.dropLast
  if 3 < octets.length || octets.any (255 < ·) || Nat.pow 256 (4 - octets.length) ≤ last then none
  let n := octets.foldl (fun n o => n * 256 + o) 0 * Nat.pow 256 (4 - octets.length) + last
  return ⟨.ofNat (n / 0x1000000), .ofNat (n / 0x10000), .ofNat (n / 0x100), .ofNat n⟩

def group? (cs : List Char) : Option Nat :=
  if cs.isEmpty || 4 < cs.length then none else value? 16 cs

/-- Groups between colons. The last two may be written as a dotted quad. -/
def groups? (dotted : Bool) : List (List Char) → Option (List Nat)
  | [] => some []
  | [part] =>
    match dotted, (splitOn '.' part).map readOctet? with
    | true, [some a, some b, some c, some d] => some [a.toNat * 256 + b.toNat, c.toNat * 256 + d.toNat]
    | _, _ => (group? part).map ([·])
  | part :: parts => do return (← group? part) :: (← groups? dotted parts)

def splitPair : List Char → Option (List Char × List Char)
  | ':' :: ':' :: cs => some ([], cs)
  | c :: cs => (splitPair cs).map fun (front, back) => (c :: front, back)
  | [] => none

def v6? (cs : List Char) : Option Host := do
  let parts (cs : List Char) : List (List Char) := if cs.isEmpty then [] else splitOn ':' cs
  match splitPair cs with
  | none =>
    let groups ← groups? true (parts cs)
    if groups.length = 8 then some (v6 groups) else none
  | some (front, back) =>
    let front ← groups? false (parts front)
    let back ← groups? true (parts back)
    let missing := 8 - (front.length + back.length)
    if missing = 0 then none else some (v6 (front ++ List.replicate missing 0 ++ back))

def unescaped : List Char → Bytes
  | [] => []
  | '%' :: a :: b :: cs =>
    match value? 16 [a, b] with
    | some n => n.toUInt8 :: unescaped cs
    | none => byte '%' :: unescaped (a :: b :: cs)
  | c :: cs => utf8 (.singleton c) ++ unescaped cs

/-- Characters as they count in a name: wide ones are those of ASCII, dots of other scripts are dots, letters of ASCII
are small, and invisible characters are left out. -/
def counted (c : Char) : Option Char :=
  let n := c.toNat
  if 0xFF01 ≤ n && n ≤ 0xFF5E then some (Char.ofNat (n - 0xFEE0)).toLower
  else if n = 0x3002 || n = 0xFF61 then some '.'
  else if n = 0xAD || n = 0x200B || n = 0x2060 || n = 0xFEFF then none
  else some c.toLower

def nameMarks : List Char := "!$&()*+,-.;=_~".toList ++ ['\x27']

def isForeign (c : Char) : Bool :=
  let n := c.toNat
  0xA0 ≤ n && !isBlank c && !(0x200C ≤ n && n ≤ 0x200F) && !(0x202A ≤ n && n ≤ 0x202E) &&
    !(0xE000 ≤ n && n ≤ 0xF8FF) && !(0xFFF0 ≤ n && n ≤ 0xFFFF) && n < 0xE0000

def isLabel (cs : List Char) : Bool :=
  match cs with
  | 'x' :: 'n' :: '-' :: '-' :: code =>
    match Punycode.decode? code with
    | some decoded => decoded.any isForeign && decoded.all fun c => c.isAlphanum || c == '-' || isForeign c
    | none => false
  | cs => cs.all fun c => c.isAlphanum || nameMarks.contains c || isForeign c

def ofText? (cs : List Char) : Option Host := do
  match cs with
  | '[' :: cs => if cs.getLast? == some ']' then v6? cs.dropLast else none
  | cs =>
    let name := (← ofUtf8? (unescaped cs)).toList.filterMap counted
    if name.isEmpty || !(splitOn '.' name).all isLabel then none
    else if endsInNumber name then return v4 (← address? name)
    else return Host.name (.ofList name)

end Host

end FilterConsole.Http
