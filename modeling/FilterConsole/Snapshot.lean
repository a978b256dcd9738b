import FilterConsole.HitOrder
import FilterConsole.Table
import FilterConsole.Timestamp

/-! The filter as the service reports it, with the hits per blocked name, and the rows of the hit table in order.
Rows with equal keys keep their order whatever the direction. -/

namespace FilterConsole

structure HitCounter where
  count : UInt64
  lastUpdated : Timestamp
  deriving DecidableEq, Repr

structure HitRow where
  domain : String
  count : UInt64
  lastUpdated : Timestamp
  deriving DecidableEq, Repr

/-- The filter at the time of a fetch. Its size counts the blocked names, the hits only those that were asked for. -/
structure Snapshot where
  createdAt : Timestamp
  size : UInt64
  hits : Table HitCounter
  deriving DecidableEq, Repr

def Snapshot.rows (s : Snapshot) : List HitRow :=
  s.hits.entries.map fun e => ⟨e.1, e.2.count, e.2.lastUpdated⟩

def SortField.cmp (f : SortField) (x y : HitRow) : Ordering :=
  match f with
  | count => compare x.count.toNat y.count.toNat
  | updatedAt => x.lastUpdated.cmp y.lastUpdated

def HitOrder.before (o : HitOrder) (x y : HitRow) : Bool :=
  match o.direction with
  | .asc => (o.field.cmp x y).isLE
  | .desc => (o.field.cmp y x).isLE

/-- The rows in the order `o`; ties stay as they are. -/
def HitOrder.arrange (o : HitOrder) (rows : List HitRow) : List HitRow :=
  rows.mergeSort o.before

def Snapshot.ordered (s : Snapshot) (o : HitOrder) : List HitRow :=
  o.arrange s.rows

def byDomain (rows : List HitRow) : List HitRow :=
  rows.mergeSort fun x y => decide (x.domain ≤ y.domain)

end FilterConsole
