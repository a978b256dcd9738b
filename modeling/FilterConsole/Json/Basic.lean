import FilterConsole.Text.Ascii
import FilterConsole.Text.Decimal

/-! JSON values as they stand in a text. A string keeps the bytes between its quotes, escapes and all, because a
string that nobody reads need not denote a text. -/

namespace FilterConsole

/-- A JSON value. An integer is written without point and exponent and is not minus zero; a `fraction` is any
other number, kept as written. -/
inductive Json where
  | null
  | boolean (b : Bool)
  | integer (i : Int)
  | fraction (written : Bytes)
  | text (raw : Bytes)
  | array (items : List Json)
  | object (members : List (Bytes × Json))

end FilterConsole
