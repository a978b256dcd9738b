import FilterConsole.Json.Token

/-! Reading a JSON text: tokens move a machine that keeps the open arrays and objects on a stack, so that nesting
has no limit. -/

namespace FilterConsole.Json

/-- An array or object still open, with what it holds so far, latest first. -/
inductive Frame where
  | array (done : List Json)
  | object (done : List (Bytes × Json)) (name : Bytes)

inductive Expect where
  | value
  | firstItem
  | firstName
  | name (done : List (Bytes × Json))
  | colon (done : List (Bytes × Json)) (name : Bytes)
  | finished (v : Json)

abbrev Machine := Expect × List Frame

def start (stack : List Frame) : Token → Option Machine
  | .scalar v => some (.finished v, stack)
  | .openBracket => some (.firstItem, .array [] :: stack)
  | .openBrace => some (.firstName, stack)
  | _ => none

def separate (v : Json) : List Frame → Option Machine
  | .array done :: stack => some (.value, .array (v :: done) :: stack)
  | .object done name :: stack => some (.name ((name, v) :: done), stack)
  | [] => none

def closeArray (v : Json) : List Frame → Option Machine
  | .array done :: stack => some (.finished (.array (v :: done).reverse), stack)
  | _ => none

def closeObject (v : Json) : List Frame → Option Machine
  | .object done name :: stack => some (.finished (.object ((name, v) :: done).reverse), stack)
  | _ => none

def step (m : Machine) (t : Token) : Option Machine :=
  match m, t with
  | (.value, stack), t => start stack t
  | (.firstItem, .array [] :: stack), .closeBracket => some (.finished (.array []), stack)
  | (.firstItem, stack), t => start stack t
  | (.firstName, stack), .closeBrace => some (.finished (.object []), stack)
  | (.firstName, stack), .scalar (.text name) => some (.colon [] name, stack)
  | (.name done, stack), .scalar (.text name) => some (.colon done name, stack)
  | (.colon done name, stack), .colon => some (.value, .object done name :: stack)
  | (.finished v, stack), .comma => separate v stack
  | (.finished v, stack), .closeBracket => closeArray v stack
  | (.finished v, stack), .closeBrace => closeObject v stack
  | _, _ => none

def parse? (bs : Bytes) : Option Json := do
  match ← (← tokens bs).foldlM step (.value, []) with
  | (.finished v, []) => some v
  | _ => none

end FilterConsole.Json
