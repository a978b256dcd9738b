import FilterConsole.ConsoleError
import FilterConsole.Credential
import FilterConsole.HitOrder
import FilterConsole.Timestamp

/-! What one operator's session keeps between operations: the credential, the order of the hits, the age of the filter
he has seen, and the single slot for watching an update. -/

namespace FilterConsole

inductive UpdateState where
  | idle
  | requested
  | polling (polls : UInt32)
  deriving DecidableEq, Repr

structure Session where
  credential : Option Credential
  order : HitOrder
  seen : Option Timestamp
  watching : Bool
  update : UpdateState
  deriving DecidableEq, Repr

namespace Session

def start (order : HitOrder) (credential : Option Credential) : Session :=
  ⟨credential, order, none, false, .idle⟩

def login (s : Session) (c : Credential) : Session := { s with credential := some c }

def logout (s : Session) : Session := { s with credential := none }

/-- A rejected credential is not kept. -/
def observe {α : Type} (s : Session) : Except ConsoleError α → Session
  | .error .unauthorized => s.logout
  | _ => s

def setOrder (s : Session) (o : HitOrder) : Session := { s with order := o }

def toggle (s : Session) (f : SortField) : Session := s.setOrder (s.order.toggle f)

def see (s : Session) (createdAt : Timestamp) : Session := { s with seen := some createdAt }

def setUpdate (s : Session) (u : UpdateState) : Session := { s with update := u }

def claim (s : Session) : Session := if s.watching then s else { s with watching := true, update := .requested }

def release (s : Session) : Session := { s with watching := false, update := .idle }

end Session

end FilterConsole
