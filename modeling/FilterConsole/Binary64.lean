import FilterConsole.Text.Decimal

/-! Binary floating point of 64 bits, by its bits: the number nearest to an exact quotient, with a tie to the even
neighbour, the quotient of two numbers, and the text with a fixed count of places, rounded the same way. -/

namespace FilterConsole

/-- Nearest integer to `num / den`, a half to the even neighbour. -/
def roundDiv (num den : Nat) : Nat :=
  let q := num / den
  let r := num % den
  if den < 2 * r then q + 1 else if den == 2 * r then q + q % 2 else q

/-- A number by its sign bit, eleven bits of exponent and fifty-two of fraction. -/
structure Binary64 where
  bits : UInt64
  deriving DecidableEq, Repr, Inhabited

namespace Binary64

def signBit : Nat := 0x8000000000000000

def infinityBits : Nat := 0x7FF0000000000000

def leadingBit : Nat := 0x10000000000000

/-- The exponent that leaves fifty-three digits before the point, or the least there is. -/
def exponentOf (num den : Nat) : Int :=
  let e : Int := (num.log2 : Int) - den.log2 - 52
  let small := if 0 ≤ e then num < leadingBit * (den <<< e.toNat) else num <<< (-e).toNat < leadingBit * den
  max (if small then e - 1 else e) (-1074)

/-- The number nearest to `num / den` with the given sign; from the overflow threshold on it is infinite. -/
def ofQuotient (negative : Bool) (num den : Nat) : Binary64 :=
  let sign := if negative then signBit else 0
  if num == 0 || den == 0 then ⟨.ofNat sign⟩ else
  let e := exponentOf num den
  let significand := if 0 ≤ e then roundDiv num (den <<< e.toNat) else roundDiv (num <<< (-e).toNat) den
  ⟨.ofNat (sign + min infinityBits ((e + 1074).toNat * leadingBit + significand))⟩

def ofInt (i : Int) : Binary64 := ofQuotient (i < 0) i.natAbs 1

def negative (x : Binary64) : Bool := signBit ≤ x.bits.toNat

def magnitudeBits (x : Binary64) : Nat := x.bits.toNat % signBit

def isInfinite (x : Binary64) : Bool := x.magnitudeBits == infinityBits

def isNaN (x : Binary64) : Bool := infinityBits < x.magnitudeBits

def magnitude (x : Binary64) : Nat × Nat :=
  let exponent := x.magnitudeBits / leadingBit
  let fraction := x.magnitudeBits % leadingBit
  if exponent == 0 then (fraction, 1 <<< 1074)
  else if 1075 ≤ exponent then ((leadingBit + fraction) <<< (exponent - 1075), 1)
  else (leadingBit + fraction, 1 <<< (1075 - exponent))

def div (x y : Binary64) : Binary64 :=
  let (a, b) := x.magnitude
  let (c, d) := y.magnitude
  ofQuotient (x.negative != y.negative) (a * d) (b * c)

def fixedText (places : Nat) (x : Binary64) : String :=
  if x.isNaN then "NaN" else
  let sign := if x.negative then "-" else ""
  if x.isInfinite then sign ++ "inf" else
  let (num, den) := x.magnitude
  let scale := Nat.pow 10 places
  let scaled := roundDiv (num * scale) den
  sign ++ numeral (scaled / scale) ++ "." ++ paddedNumeral places (scaled % scale)

end Binary64

end FilterConsole
