/-! Decimal numerals: a number's digits, and the same padded with zeros to a width. -/

namespace FilterConsole

def numeral (n : Nat) : String := String.ofList (Nat.toDigits 10 n)

def paddedNumeral (width n : Nat) : String :=
  String.ofList ((Nat.toDigits 10 n).leftpad width '0')

def signedNumeral (i : Int) : String :=
  if i < 0 then "-" ++ numeral i.natAbs else numeral i.natAbs

def readDigits? (cs : List Char) : Option Nat :=
  if cs.isEmpty || !cs.all Char.isDigit then none
  else some (cs.foldl (fun n c => n * 10 + (c.toNat - '0'.toNat)) 0)

end FilterConsole
