import FilterConsole.Text.Split
import FilterConsole.Toml.Basic
import FilterConsole.Toml.Text

/-! Numbers of TOML: integers in four bases and decimal numbers, with underscores between their digits. The form of an
integer in base ten is checked only at its underscores; what else is wrong with its digits leaves it without a value. -/

namespace FilterConsole.Toml

def splitSign : List Char → Option Char × List Char
  | '-' :: r => (some '-', r)
  | '+' :: r => (some '+', r)
  | cs => (none, cs)

/-- Whether underscores may stand between parts: there has to be a digit on either side of each of them. -/
def joinsDigits (isDigit : Char → Bool) (parts : List (List Char)) : Bool :=
  (parts.tail.all fun p => p.head?.any isDigit) && (parts.dropLast.all fun p => p.getLast?.any isDigit)

def joined? (isDigit : Char → Bool) (cs : List Char) : Option (List Char) :=
  let parts := splitOn '_' cs
  if joinsDigits isDigit parts then some parts.flatten else none

def isDigitIn (base : Nat) (c : Char) : Bool := isHexDigit c && digitValue c < base

def signedValue? (base : Nat) (cs : List Char) : Option Int :=
  let (sign, digits) := splitSign cs
  if digits.isEmpty || !digits.all (isDigitIn base) then none
  else some (if sign == some '-' then -(valueIn base digits : Int) else valueIn base digits)

/-- An integer in another base than ten, from what follows its base. Without a digit it has no value. -/
def based? (base : Nat) (cs : List Char) : Option Toml := do
  let digits ← joined? isHexDigit cs
  if digits.all (isDigitIn base) then some (.integer (signedValue? base digits)) else none

def nearest? (negative : Bool) (digits : List Char) (exponent : Int) : Option Binary64 :=
  let digits := digits.dropWhile (· == '0')
  let size : Int := digits.length + exponent
  if digits.isEmpty || size < -400 then some (.ofQuotient negative 0 1)
  else if 310 < size then none
  else
    let n := valueIn 10 digits
    let x := if 0 ≤ exponent then Binary64.ofQuotient negative (n * Nat.pow 10 exponent.toNat) 1
      else Binary64.ofQuotient negative n (Nat.pow 10 (-exponent).toNat)
    if x.isInfinite then none else some x

def cutAt (p : Char → Bool) (cs : List Char) : List Char × Option (List Char) :=
  (cs.takeWhile fun c => !p c, (cs.dropWhile fun c => !p c).tail?)

def areDigits (cs : List Char) : Bool := !cs.isEmpty && cs.all Char.isDigit

def isWhole (cs : List Char) : Bool := areDigits cs && (cs.length == 1 || cs.head? != some '0')

def decimal? (sign : Option Char) (cs : List Char) : Option Toml := do
  let (mantissa, exponent) := cutAt (fun c => c == 'e' || c == 'E') cs
  let (whole, places) := cutAt (· == '.') mantissa
  let (exponentSign, power) := splitSign (exponent.getD ['0'])
  let places := places.getD ['0']
  if !isWhole whole || !areDigits places || !areDigits power then none
  let power : Int := if exponentSign == some '-' then -(valueIn 10 power : Int) else valueIn 10 power
  return .decimal (nearest? (sign == some '-') (whole ++ places) (power - places.length))

def extreme? (sign : Option Char) (cs : List Char) : Option Toml :=
  let signBit := if sign == some '-' then Binary64.signBit else 0
  if cs == "inf".toList then some (.decimal (some ⟨.ofNat (signBit + Binary64.infinityBits)⟩))
  else if cs == "nan".toList then
    some (.decimal (some ⟨.ofNat (signBit + Binary64.infinityBits + Binary64.leadingBit / 2)⟩))
  else none

def baseTen? (sign : Option Char) (cs : List Char) : Option Toml := do
  let rest := cs.dropWhile Char.isDigit
  let isDecimal := rest.any fun c => c == '.' || c == 'e' || c == 'E'
  if rest.contains ' ' || (!isDecimal && rest.head?.any (· != '_')) then none
  if cs.isEmpty || (sign.isNone && rest == cs) then none
  let digits ← joined? (if isDecimal then Char.isDigit else isHexDigit) (sign.toList ++ cs)
  let unsigned := (splitSign digits).2
  if isDecimal then decimal? sign unsigned
  else if cs.head? == some '0' && 1 < cs.length then none
  else return .integer (signedValue? 10 digits)

def number? (cs : List Char) : Option Toml :=
  match splitSign cs with
  | (none, '0' :: 'x' :: r) => based? 16 r
  | (none, '0' :: 'o' :: r) => based? 8 r
  | (none, '0' :: 'b' :: r) => based? 2 r
  | (sign, r) => (extreme? sign r).orElse fun _ => baseTen? sign r

end FilterConsole.Toml
