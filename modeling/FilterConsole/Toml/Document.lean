import FilterConsole.Toml.Basic

/-! A TOML document grows line by line. Headers and dotted keys lead to a table through the tables above it, which
are made on the way if they are missing; a line that would open a table twice or set a key twice is refused. -/

namespace FilterConsole.Toml

def setMember (key : String) (v : Toml) : Members → Members
  | [] => [(key, v)]
  | e :: r => if e.1 == key then (key, v) :: r else e :: setMember key v r

/-- Changes the table that a path leads to. A path goes through the last element of an array of tables and never
through a table in braces; the path of a dotted key goes through no table that a header has opened. -/
def changeAt (dotted : Bool) (change : Origin → Members → Option Members) :
    List String → Origin → Members → Option Members
  | [], origin, members => change origin members
  | key :: path, _, members =>
    match members.lookup key with
    | none => do
      let origin := if dotted then .dottedKey else .within
      return setMember key (.table origin (← changeAt dotted change path origin [])) members
    | some (.table origin inner) =>
      if origin = .braces || (dotted && origin = .header) then none else do
        return setMember key (.table origin (← changeAt dotted change path origin inner)) members
    | some (.elements items) =>
      match items.getLast? with
      | some (.table origin inner) => do
        let last := .table origin (← changeAt dotted change path origin inner)
        return setMember key (.elements (items.dropLast ++ [last])) members
      | _ => none
    | some _ => none

/-- Adds a key with its value. The table that a dotted key ends in is one that dotted keys have made. -/
def addMember (path : List String) (key : String) (v : Toml) : Origin → Members → Option Members :=
  changeAt (!path.isEmpty) (fun origin members =>
    if (origin == .dottedKey) == path.isEmpty || (members.lookup key).isSome then none
    else some (members ++ [(key, v)])) path

/-- A header in single brackets opens a new table, or one that so far only has tables inside it. -/
def openTable (path : List String) (key : String) (root : Members) : Option Members :=
  changeAt false (fun _ members =>
    match members.lookup key with
    | none => some (members ++ [(key, .table .header [])])
    | some (.table .within inner) => some (setMember key (.table .header inner) members)
    | some _ => none) path .header root

def openElement (path : List String) (key : String) (root : Members) : Option Members :=
  changeAt false (fun _ members =>
    match members.lookup key with
    | none => some (members ++ [(key, .elements [.table .header []])])
    | some (.elements items) => some (setMember key (.elements (items ++ [.table .header []])) members)
    | some _ => none) path .header root

structure Document where
  root : Members
  current : List String

namespace Document

def empty : Document := ⟨[], []⟩

def add (d : Document) (path : List String) (key : String) (v : Toml) : Option Document := do
  return { d with root := ← changeAt false (addMember path key v) d.current .header d.root }

def enter (d : Document) (element : Bool) (path : List String) (key : String) : Option Document := do
  return ⟨← (if element then openElement else openTable) path key d.root, path ++ [key]⟩

end Document

end FilterConsole.Toml
