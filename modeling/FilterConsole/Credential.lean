import FilterConsole.Text.Blank

/-! The secret presented on every call to the service. -/

namespace FilterConsole

structure Credential where
  secret : String
  not_blank : trim secret ≠ ""
  deriving DecidableEq

namespace Credential

def ofSecret? (s : String) : Option Credential :=
  if h : trim s ≠ "" then some ⟨s, h⟩ else none

def masked (_ : Credential) : String := "Credential(***)"

instance : Repr Credential := ⟨fun c _ => c.masked⟩

end Credential

end FilterConsole
