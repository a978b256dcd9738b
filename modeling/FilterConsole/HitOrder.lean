/-! The order of the hit table: a field and a direction, their names, and the click on a column heading. -/

namespace FilterConsole

inductive SortField where
  | count
  | updatedAt
  deriving DecidableEq, Repr

inductive SortDirection where
  | asc
  | desc
  deriving DecidableEq, Repr

structure HitOrder where
  field : SortField
  direction : SortDirection
  deriving DecidableEq, Repr

def SortField.name : SortField → String
  | count => "count"
  | updatedAt => "updated_at"

/-- Operators may write a hyphen for the underscore. -/
def SortField.ofName? : String → Option SortField
  | "count" => some count
  | "updated_at" | "updated-at" => some updatedAt
  | _ => none

namespace SortDirection

def flipped : SortDirection → SortDirection
  | asc => desc
  | desc => asc

def name : SortDirection → String
  | asc => "asc"
  | desc => "desc"

def ofName? : String → Option SortDirection
  | "asc" => some asc
  | "desc" => some desc
  | _ => none

end SortDirection

namespace HitOrder

def initial : HitOrder := ⟨.updatedAt, .desc⟩

instance : Inhabited HitOrder := ⟨initial⟩

def toggle (o : HitOrder) (field : SortField) : HitOrder := ⟨field, o.direction.flipped⟩

end HitOrder

end FilterConsole
