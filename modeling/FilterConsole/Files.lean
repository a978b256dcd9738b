import FilterConsole.Table
import FilterConsole.Text.Ascii
import FilterConsole.Text.Split

/-! Files by path, and why one cannot be read. -/

namespace FilterConsole

inductive FileProblem where
  | notFound
  | notDirectory
  | isDirectory
  | nameTooLong
  | nullInName
  | notUtf8
  | unreadable (text : String)
  | other (text : String)
  deriving DecidableEq, Repr

def FileProblem.text : FileProblem → String
  | notFound => "No such file or directory (os error 2)"
  | notDirectory => "Not a directory (os error 20)"
  | isDirectory => "Is a directory (os error 21)"
  | nameTooLong => "File name too long (os error 36)"
  | nullInName => "file name contained an unexpected NUL byte"
  | notUtf8 => "stream did not contain valid UTF-8"
  | unreadable text | other text => text

/-- What reading each path gives. What is `unreadable` is there all the same; for any `other` reason nothing is. -/
abbrev Files := String → Except FileProblem Bytes

def Files.has (files : Files) (path : String) : Bool :=
  match files path with
  | .ok _ | .error .isDirectory | .error (.unreadable _) => true
  | .error _ => false

def Files.readText (files : Files) (path : String) : Except FileProblem String := do
  match ofUtf8? (← files path) with
  | some s => .ok s
  | none => .error .notUtf8

abbrev Directory := Table Bytes

namespace Directory

def segments (path : String) : List String := (splitOn '/' path.toList).map String.ofList

def systemDirectories : List String :=
  ["bin", "dev", "etc", "home", "lib", "proc", "root", "sbin", "sys", "tmp", "usr", "var"]

/-- Where a path has come to: a directory of the tree, by its path in it, one somewhere above the tree, or one of the
system, by its path from the root. -/
inductive Place where
  | inside (path : List String)
  | above
  | system (path : List String)
  deriving DecidableEq, Repr

/-- The directory above. There is always one, since the root is above itself. -/
def Place.parent : Place → Place
  | inside path => if path.isEmpty then above else inside path.dropLast
  | above => above
  | system path => system path.dropLast

def lookUp (d : Directory) (name : String) : Place → Except FileProblem (Place ⊕ Bytes)
  | .inside path =>
    let here := path ++ [name]
    match d.entries.find? fun e => segments e.1 == here with
    | some (_, bytes) => .ok (.inr bytes)
    | none =>
      if d.entries.any fun e => here.isPrefixOf (segments e.1) then .ok (.inl (.inside here)) else .error .notFound
  | .above => .error .notFound
  | .system path =>
    let here := path ++ [name]
    if here = ["dev", "null"] then .ok (.inr [])
    else if path.isEmpty && systemDirectories.contains name then .ok (.inl (.system here))
    else .error .notFound

def walk (d : Directory) : Place → List String → Except FileProblem Bytes
  | _, [] => .error .isDirectory
  | place, name :: rest =>
    if name = "" || name = "." then walk d place rest
    else if name = ".." then walk d place.parent rest
    else if 255 < name.utf8ByteSize then .error .nameTooLong
    else match d.lookUp name place with
      | .ok (.inl place) => walk d place rest
      | .ok (.inr bytes) => if rest.isEmpty then .ok bytes else .error .notDirectory
      | .error problem => .error problem

def files (d : Directory) : Files := fun path =>
  if path = "" then .error .notFound
  else if path.contains '\x00' then .error .nullInName
  else if 4096 ≤ path.utf8ByteSize then .error .nameTooLong
  else walk d (if path.front = '/' then .system [] else .inside []) (segments path)

end Directory

end FilterConsole
