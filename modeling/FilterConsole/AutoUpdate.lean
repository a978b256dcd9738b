import FilterConsole.ConsoleError

/-! The service's scheduled filter rebuild. -/

namespace FilterConsole

inductive AutoUpdate where
  | disabled
  | every (seconds : UInt64)
  deriving DecidableEq, Repr

namespace AutoUpdate

def schedule (seconds : UInt64) : Except ConsoleError AutoUpdate :=
  if seconds = 0 then .error (.invalidAutoUpdateInterval seconds) else .ok (.every seconds)

/-- The setting as the service sends it; an interval of zero means no rebuild. -/
def ofWire : Option UInt64 → AutoUpdate
  | none => disabled
  | some seconds => if seconds = 0 then disabled else every seconds

def toWire : AutoUpdate → Option UInt64
  | disabled => none
  | every seconds => some seconds

def isEnabled : AutoUpdate → Bool
  | disabled => false
  | every _ => true

def text : AutoUpdate → String
  | disabled => "disabled"
  | every seconds => "every " ++ numeral seconds.toNat ++ "s"

end AutoUpdate

end FilterConsole
