import FilterConsole.Http.Head
import FilterConsole.Text.Blank
import FilterConsole.Text.Decimal
import FilterConsole.Text.Split

/-! The body of a response: where it ends by its head, and its bytes in what came before the connection was closed. -/

namespace FilterConsole.Http

open Ascii

inductive Framing where
  | empty
  | counted (size : Nat)
  | chunked
  | untilClosed
  deriving DecidableEq, Repr

namespace Framing

def largestSize : Nat := 0xFFFFFFFFFFFFFFFD

def listed (value : String) : List String := (splitOn ',' value.toList).map fun part => trim (.ofList part)

/-- The one size in some values, in which it may stand more than once. -/
def size? (values : List (Option String)) : Option Nat := do
  let sizes ← (← values.mapM id).flatMap listed |>.mapM fun s => readDigits? s.toList
  match sizes with
  | size :: sizes => if size ≤ largestSize && sizes.all (· == size) then some size else none
  | [] => none

def ofHead? (h : Head) : Option Framing :=
  if h.status = 101 || h.status = 204 || h.status = 304 then some .empty
  else match (h.values "transfer-encoding").getLast?, h.values "content-length" with
    | some coding, _ =>
      if h.isOld then none
      else if (coding.bind fun s => (listed s).getLast?).any (·.toLower == "chunked") then some .chunked
      else some .untilClosed
    | none, [] => some .untilClosed
    | none, sizes => (size? sizes).map .counted

end Framing

/-- How many bytes all extensions of chunks, or all lines after the last chunk, stay below. -/
def remarkLimit : Nat := 0x4000

def chunkSize? (bs : Bytes) : Option (Nat × Nat × Bytes) :=
  let (digits, rest) := bs.span fun b => (hexValue? b).isSome
  let size := digits.foldl (fun n b => n * 16 + (hexValue? b).getD 0) 0
  if digits.isEmpty then none
  else match rest.dropWhile isBlankByte with
    | 0x0D :: 0x0A :: rest => some (size, 0, rest)
    | 0x3B :: rest =>
      let (extension, rest) := rest.span (· != 0x0D)
      match rest with
      | 0x0D :: 0x0A :: rest => if extension.contains 0x0A then none else some (size, extension.length, rest)
      | _ => none
    | _ => none

/-- The lines up to an empty one, fewer than so many. Only a carriage return and a line feed together end a line. -/
def closingLines? : Nat → Bytes → Option (List Bytes)
  | 0, _ => none
  | n + 1, bs => do
    let (line, rest) := bs.span (· != 0x0D)
    match rest with
    | 0x0D :: 0x0A :: rest => if line.isEmpty then return [] else return line :: (← closingLines? n rest)
    | _ => none

def isClosing (bs : Bytes) : Bool :=
  match closingLines? Header.limit bs with
  | none => false
  | some [] => true
  | some lines =>
    let bytes := lines.flatMap (· ++ lineBreak) ++ lineBreak
    bytes.length < remarkLimit && (Header.readAll? lines.length bytes).isSome

def chunks? : Nat → Nat → Bytes → Option Bytes
  | 0, _, _ => none
  | n + 1, remarks, bs => do
    let (size, extension, rest) ← chunkSize? bs
    if remarkLimit ≤ remarks + extension then none
    if size = 0 then
      if isClosing rest then return [] else none
    let (chunk, rest) := rest.splitAt size
    match rest with
    | 0x0D :: 0x0A :: rest => return chunk ++ (← chunks? n (remarks + extension) rest)
    | _ => none

def Framing.body? (rest : Bytes) : Framing → Option Bytes
  | empty => some []
  | counted size => if size ≤ rest.length then some (rest.take size) else none
  | chunked => chunks? (rest.length + 1) 0 rest
  | untilClosed => some rest

end FilterConsole.Http
