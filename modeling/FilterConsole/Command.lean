import FilterConsole.DomainName
import FilterConsole.Refresh

/-! Commands that change the service. The arguments are checked before anything is called; a successful write is
followed by a refresh. -/

namespace FilterConsole

inductive Command where
  | allow (domain : String)
  | disallow (domain : String)
  | setOverride (domain : String) (address : Address)
  | removeOverride (domain : String)
  | setAutoUpdate (setting : AutoUpdate)
  deriving DecidableEq, Repr

namespace Command

/-- The write of a command, with its name trimmed, or the fault of its arguments. -/
def write : Command → Except ConsoleError Write
  | allow domain => return .allow (← domainName domain)
  | disallow domain => return .disallow (← domainName domain)
  | setOverride domain address => return .setOverride (← domainName domain) address
  | removeOverride domain => return .removeOverride (← domainName domain)
  | setAutoUpdate .disabled => return .setAutoUpdate .disabled
  | setAutoUpdate (.every seconds) => return .setAutoUpdate (← AutoUpdate.schedule seconds)

def run (command : Command) : Operation View := do
  let w ← liftExcept command.write
  let c ← Operation.credential
  Operation.write c w
  refresh
where
  liftExcept {α : Type} (r : Except ConsoleError α) : Operation α := .mk (.done r)

end Command

end FilterConsole
