import FilterConsole.Json.Text

/-! The tokens of a JSON text: brackets, separators and scalars, with blanks between them. -/

namespace FilterConsole.Json

open Ascii

inductive Token where
  | openBrace
  | closeBrace
  | openBracket
  | closeBracket
  | comma
  | colon
  | scalar (value : Json)

def scanDigits (bs : Bytes) : Option (Bytes × Bytes) :=
  if (bs.head?.map isDigit).getD false then some (bs.takeWhile isDigit, bs.dropWhile isDigit) else none

def scanWhole (bs : Bytes) : Option (Bytes × Bytes) :=
  match bs with
  | 0x30 :: r => some ([0x30], r)
  | _ => scanDigits bs

def scanPlaces (bs : Bytes) : Option (Bytes × Bytes) :=
  match bs with
  | 0x2E :: r => (scanDigits r).map fun (ds, rest) => (0x2E :: ds, rest)
  | _ => some ([], bs)

def scanSign (bs : Bytes) : Bytes × Bytes :=
  match bs with
  | b :: r => if b = byte '+' || b = byte '-' then ([b], r) else ([], bs)
  | [] => ([], [])

def scanExponent (bs : Bytes) : Option (Bytes × Bytes) :=
  match bs with
  | e :: r =>
    if e = byte 'e' || e = byte 'E' then
      let (sign, r) := scanSign r
      (scanDigits r).map fun (ds, rest) => (e :: (sign ++ ds), rest)
    else some ([], bs)
  | [] => some ([], [])

def scanUnsigned (negative : Bool) (bs : Bytes) : Option (Json × Bytes) := do
  let (whole, r) ← scanWhole bs
  let (places, r) ← scanPlaces r
  let (exponent, r) ← scanExponent r
  let n := decimalValue whole
  if places.isEmpty && exponent.isEmpty && !(negative && n == 0) then
    return (.integer (if negative then -n else n), r)
  else
    return (.fraction ((if negative then [byte '-'] else []) ++ whole ++ places ++ exponent), r)

def scanNumber (bs : Bytes) : Option (Json × Bytes) :=
  match bs with
  | 0x2D :: r => scanUnsigned true r
  | _ => scanUnsigned false bs

def after? (word bs : Bytes) : Option Bytes :=
  if word.isPrefixOf bs then some (bs.drop word.length) else none

def scanScalar (bs : Bytes) : Option (Json × Bytes) :=
  match bs with
  | 0x22 :: r => (scanText r).map fun (raw, rest) => (.text raw, rest)
  | _ =>
    match after? (utf8 "null") bs, after? (utf8 "true") bs, after? (utf8 "false") bs with
    | some rest, _, _ => some (.null, rest)
    | _, some rest, _ => some (.boolean true, rest)
    | _, _, some rest => some (.boolean false, rest)
    | _, _, _ => scanNumber bs

def mark? (b : UInt8) : Option Token :=
  if b = byte '\x7b' then some .openBrace
  else if b = byte '\x7d' then some .closeBrace
  else if b = byte '[' then some .openBracket
  else if b = byte ']' then some .closeBracket
  else if b = byte ',' then some .comma
  else if b = byte ':' then some .colon
  else none

def isSpace (b : UInt8) : Bool := b = 0x20 || b = 0x0A || b = 0x0D || b = 0x09

def tokensWithin : Nat → Bytes → Option (List Token)
  | _, [] => some []
  | 0, _ :: _ => none
  | n + 1, b :: r =>
    if isSpace b then tokensWithin n r
    else match mark? b with
      | some t => (tokensWithin n r).map (t :: ·)
      | none => do
        let (v, rest) ← scanScalar (b :: r)
        return .scalar v :: (← tokensWithin n rest)

def tokens (bs : Bytes) : Option (List Token) := tokensWithin bs.length bs

end FilterConsole.Json
