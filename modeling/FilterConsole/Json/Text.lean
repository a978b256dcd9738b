import FilterConsole.Json.Basic

/-! Escapes in JSON strings: which bytes may stand between quotes, what they denote, and how a text is written. -/

namespace FilterConsole.Json

open Ascii

def escaped? (letter : UInt8) : Option UInt8 :=
  if letter = byte '"' || letter = byte '\\' || letter = byte '/' then some letter
  else if letter = byte 'b' then some 0x08
  else if letter = byte 'f' then some 0x0C
  else if letter = byte 'n' then some 0x0A
  else if letter = byte 'r' then some 0x0D
  else if letter = byte 't' then some 0x09
  else none

/-- Splits at the closing quote. Control characters, unknown escapes and short ones are refused. -/
def scanText : Bytes → Option (Bytes × Bytes)
  | [] => none
  | b :: r =>
    if b = byte '"' then some ([], r)
    else if b = byte '\\' then
      match r with
      | 0x75 :: h₁ :: h₂ :: h₃ :: h₄ :: r =>
        if (hexValue4? h₁ h₂ h₃ h₄).isSome then
          (scanText r).map fun (raw, rest) => (b :: 0x75 :: h₁ :: h₂ :: h₃ :: h₄ :: raw, rest)
        else none
      | e :: r => if (escaped? e).isSome then (scanText r).map fun (raw, rest) => (b :: e :: raw, rest) else none
      | [] => none
    else if b < 0x20 then none
    else (scanText r).map fun (raw, rest) => (b :: raw, rest)

def codePoint (n : Nat) : Bytes := utf8 (String.singleton (Char.ofNat n))

/-- The bytes that a scanned string denotes. A surrogate stands in a pair, or not at all. -/
def unescape : Bytes → Option Bytes
  | [] => some []
  | b :: r =>
    if b = byte '\\' then
      match r with
      | 0x75 :: h₁ :: h₂ :: h₃ :: h₄ :: r => do
        let n ← hexValue4? h₁ h₂ h₃ h₄
        if 0xD800 ≤ n && n < 0xDC00 then
          match r with
          | 0x5C :: 0x75 :: g₁ :: g₂ :: g₃ :: g₄ :: r => do
            let m ← hexValue4? g₁ g₂ g₃ g₄
            if 0xDC00 ≤ m && m < 0xE000 then
              return codePoint (0x10000 + (n - 0xD800) * 0x400 + (m - 0xDC00)) ++ (← unescape r)
            else none
          | _ => none
        else if 0xDC00 ≤ n && n < 0xE000 then none
        else return codePoint n ++ (← unescape r)
      | e :: r => do return (← escaped? e) :: (← unescape r)
      | [] => none
    else (unescape r).map (b :: ·)

def readText? (raw : Bytes) : Option String := do ofUtf8? (← unescape raw)

def escapeByte (b : UInt8) : Bytes :=
  if b = byte '"' || b = byte '\\' then [byte '\\', b]
  else if b = 0x08 then [byte '\\', byte 'b']
  else if b = 0x0C then [byte '\\', byte 'f']
  else if b = 0x0A then [byte '\\', byte 'n']
  else if b = 0x0D then [byte '\\', byte 'r']
  else if b = 0x09 then [byte '\\', byte 't']
  else if b < 0x20 then [byte '\\', byte 'u', byte '0', byte '0', hexDigit (b.toNat / 16), hexDigit (b.toNat % 16)]
  else [b]

def escape (bs : Bytes) : Bytes := bs.flatMap escapeByte

def ofText (s : String) : Json := .text (escape (utf8 s))

end FilterConsole.Json
