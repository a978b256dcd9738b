import FilterConsole.Json.Text
import FilterConsole.Table

/-! Reading domain values out of JSON values: numbers in range, texts, lists, maps by name, and records whose fields
stand under their names or, in an array, at their places. -/

namespace FilterConsole.Json

variable {α : Type}

def integerIn? (low high : Int) : Json → Option Int
  | .integer i => if low ≤ i && i < high then some i else none
  | _ => none

def word64? (v : Json) : Option UInt64 := (v.integerIn? 0 0x10000000000000000).map fun i => .ofNat i.toNat

def word32? (v : Json) : Option UInt32 := (v.integerIn? 0 0x100000000).map fun i => .ofNat i.toNat

def octet? (v : Json) : Option UInt8 := (v.integerIn? 0 0x100).map fun i => .ofNat i.toNat

def int64? (v : Json) : Option Int64 := (v.integerIn? (-0x8000000000000000) 0x8000000000000000).map .ofInt

def text? : Json → Option String
  | .text raw => readText? raw
  | _ => none

def list? (item? : Json → Option α) : Json → Option (List α)
  | .array items => items.mapM item?
  | _ => none

/-- An object as a table; of two members with one name the later one stays. -/
def table? (value? : Json → Option α) : Json → Option (Table α)
  | .object members => do
    return .ofList (← members.mapM fun (name, v) => do return (← readText? name, ← value? v))
  | _ => none

def nullable? (value? : Json → Option α) : Json → Option (Option α)
  | .null => some none
  | v => (value? v).map some

def member? (members : List (String × Json)) (name : String) : Option (Option Json) :=
  match members.filter (·.1 == name) with
  | [] => some none
  | [(_, v)] => some (some v)
  | _ => none

/-- The fields of a record. In an object they stand under their names, in any order and among others; in an array
they stand at their places, and those after the first `required` ones may be left out. -/
def fields? (names : List String) (required : Nat) : Json → Option (List (Option Json))
  | .object members => do
    let members ← members.mapM fun (name, v) => (readText? name).map (·, v)
    names.mapM (member? members)
  | .array items =>
    if required ≤ items.length && items.length ≤ names.length then
      some ((items.map some).rightpad names.length none)
    else none
  | _ => none

def orElse? (value? : Json → Option α) (absent : α) : Option Json → Option α
  | none => some absent
  | some v => value? v

end FilterConsole.Json
