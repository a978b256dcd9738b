import FilterConsole.ConsoleError
import FilterConsole.Table
import FilterConsole.Text.Blank
import FilterConsole.Text.Split

/-! Addresses of four octets, written as a strict dotted quad: four numbers below 256 without leading zeros. -/

namespace FilterConsole

structure Address where
  a : UInt8
  b : UInt8
  c : UInt8
  d : UInt8
  deriving DecidableEq, Repr

abbrev Overrides := Table Address

/-- One to three digits, no zero in front of another digit, at most 255. -/
def readOctet? (cs : List Char) : Option UInt8 :=
  if 3 < cs.length || (cs.head? == some '0' && 1 < cs.length) then none
  else (readDigits? cs).bind fun n => if n < 256 then some (.ofNat n) else none

namespace Address

def octets (x : Address) : List UInt8 := [x.a, x.b, x.c, x.d]

def ofOctets : List UInt8 → Except ConsoleError Address
  | [a, b, c, d] => .ok ⟨a, b, c, d⟩
  | octets => .error (.invalidAddress (numeral octets.length ++ " octets"))

def text (x : Address) : String :=
  String.intercalate "." (x.octets.map fun o => numeral o.toNat)

def parse (s : String) : Except ConsoleError Address :=
  match (splitOn '.' (trim s).toList).map readOctet? with
  | [some a, some b, some c, some d] => .ok ⟨a, b, c, d⟩
  | _ => .error (.invalidAddress s)

end Address

end FilterConsole
