import FilterConsole.Timestamp

/-! Answers the service keeps, each until it expires. -/

namespace FilterConsole

structure CacheEntry where
  name : String
  validUntil : Timestamp
  deriving DecidableEq, Repr

def byExpiry (entries : List CacheEntry) : List CacheEntry :=
  entries.mergeSort fun x y => (x.validUntil.cmp y.validUntil).isLE

end FilterConsole
