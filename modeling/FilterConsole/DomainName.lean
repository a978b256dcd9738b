import FilterConsole.ConsoleError
import FilterConsole.Text.Blank

/-! Domain names as an operator types them. -/

namespace FilterConsole

def domainName (s : String) : Except ConsoleError String :=
  let name := trim s
  if name.isEmpty then .error (.invalidDomainName s)
  else if name.toList.any isBlank then .error (.invalidDomainName name)
  else .ok name

end FilterConsole
