import FilterConsole.Call
import FilterConsole.Session

/-! Operations of the console as trees of effects: looks at the session, which may change it, and calls to the service.
A tree can be run to its end against any service, or effect by effect, so that operations may interleave. -/

namespace FilterConsole

/-- A tree of effects that ends with a value. -/
inductive Program (α : Type) where
  | done (a : α)
  | access (change : Session → Session) (next : Session → Program α)
  | fetch (c : Credential) (f : Fetch) (next : Except ConsoleError f.Answer → Program α)
  | write (c : Credential) (w : Write) (next : Except ConsoleError Unit → Program α)

/-- The session, the service and the calls so far, latest first. -/
structure World (σ : Type) where
  session : Session
  service : σ
  log : List (Credential × Call)

namespace World

variable {σ : Type}

def calls (w : World σ) : List (Credential × Call) := w.log.reverse

def mapSession (w : World σ) (change : Session → Session) : World σ := { w with session := change w.session }

end World

namespace Program

variable {α β σ : Type}

def bind : Program α → (α → Program β) → Program β
  | done a, k => k a
  | access change next, k => access change fun s => (next s).bind k
  | fetch c f next, k => fetch c f fun r => (next r).bind k
  | write c w next, k => write c w fun r => (next r).bind k

instance : Monad Program where
  pure := done
  bind := bind

def step (b : Backend σ) (w : World σ) : Program α → Program α × World σ
  | done a => (done a, w)
  | access change next => (next w.session, w.mapSession change)
  | fetch c f next =>
    let (r, service) := b.fetch c f w.service
    (next r, { w with service, log := (c, .fetch f) :: w.log })
  | write c wr next =>
    let (r, service) := b.write c wr w.service
    (next r, { w with service, log := (c, .write wr) :: w.log })

def run (b : Backend σ) : Program α → World σ → α × World σ
  | done a, w => (a, w)
  | access change next, w => (next w.session).run b (w.mapSession change)
  | fetch c f next, w =>
    let (r, service) := b.fetch c f w.service
    (next r).run b { w with service, log := (c, .fetch f) :: w.log }
  | write c wr next, w =>
    let (r, service) := b.write c wr w.service
    (next r).run b { w with service, log := (c, .write wr) :: w.log }

end Program

abbrev Operation := ExceptT ConsoleError Program

namespace Operation

def session : Operation Session := ExceptT.lift (.access id .done)

def modify (change : Session → Session) : Operation Unit := ExceptT.lift (.access change fun _ => .done ())

def credential : Operation Credential := do
  match (← session).credential with
  | some c => return c
  | none => throw .missingCredential

def observed {α : Type} (r : Except ConsoleError α) : Operation α :=
  .mk (.access (·.observe r) fun _ => .done r)

def fetch (c : Credential) (f : Fetch) : Operation f.Answer := .mk (.fetch c f fun r => (observed r).run)

def write (c : Credential) (w : Write) : Operation Unit := .mk (.write c w fun r => (observed r).run)

end Operation

end FilterConsole
