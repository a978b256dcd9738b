import FilterConsole.Binary64

/-! TOML values as they stand in a document. A table remembers how it came about, because that decides which later
lines may add to it. -/

namespace FilterConsole

namespace Toml

/-- How a table came about: written in braces, by a header of its own, by the header of a table inside it, or by a
dotted key. -/
inductive Origin where
  | braces
  | header
  | within
  | dottedKey
  deriving DecidableEq, Repr

end Toml

/-- A TOML value. An integer with wrong digits has no value, nor has a decimal number that is too large; an instant is
kept as written. Headers in double brackets make an array of `elements`, each a table. -/
inductive Toml where
  | text (s : String)
  | integer (value : Option Int)
  | decimal (value : Option Binary64)
  | boolean (b : Bool)
  | instant (written : String)
  | array (items : List Toml)
  | elements (items : List Toml)
  | table (origin : Toml.Origin) (members : List (String × Toml))

abbrev Toml.Members := List (String × Toml)

end FilterConsole
