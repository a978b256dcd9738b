import FilterConsole.Program
import FilterConsole.View

/-! Reading every section of the service into a view. -/

namespace FilterConsole

/-- Reads the six sections one after the other with one credential and stops at the first failure. Only when all have
come is the age of the filter noted; the order of the hits is that of the session at that time. -/
def refresh : Operation View := do
  let c ← Operation.credential
  let filter ← Operation.fetch c .filter
  let cache ← Operation.fetch c .cache
  let queryLog ← Operation.fetch c .queryLog
  let allowList ← Operation.fetch c .allowList
  let overrides ← Operation.fetch c .overrides
  let autoUpdate ← Operation.fetch c .autoUpdate
  let order := (← Operation.session).order
  Operation.modify (·.see filter.createdAt)
  return .ofSections order filter cache queryLog allowList overrides autoUpdate

def resort (view : View) (field : SortField) (s : Session) : View × Session :=
  (view.resorted (s.toggle field).order, s.toggle field)

end FilterConsole
