import FilterConsole.Toml.Document
import FilterConsole.Toml.Instant
import FilterConsole.Toml.Number

/-! Reading a TOML document: blanks and comments, keys and their values, headers. Arrays and tables in braces lie at
most eighty deep in each other. -/

namespace FilterConsole.Toml

def skipFiller (comment : Bool) : List Char → List Char
  | [] => []
  | c :: r =>
    if breaksLine c r then skipFiller false r
    else if comment then if isPlain c then skipFiller true r else c :: r
    else if isSpace c then skipFiller false r
    else if c == '#' then skipFiller true r
    else c :: r

def endsLine (cs : List Char) : Bool :=
  match cs.dropWhile isSpace with
  | [] => true
  | c :: r => c == '#' || breaksLine c r

def isBareKey (c : Char) : Bool := c.isAlphanum || c == '-' || c == '_'

def scanKey (cs : List Char) : Option (String × List Char) :=
  match cs.span isBareKey with
  | ([], _) => scanQuoted cs
  | (key, rest) => some (.ofList key, rest)

def partLimit : Nat := 80

def scanParts (cs : List Char) : Option (List String × List Char) := do
  let (key, r) ← scanKey (cs.dropWhile isSpace)
  match r.dropWhile isSpace with
  | '.' :: r =>
    if r.length < cs.length then
      let (parts, rest) ← scanParts r
      return (key :: parts, rest)
    else none
  | r => return ([key], r)
termination_by cs.length

def scanPath (cs : List Char) : Option (List String × String × List Char) := do
  let (parts, rest) ← scanParts cs
  if partLimit < parts.length then none
  return (parts.dropLast, ← parts.getLast?, rest)

def isWord (c : Char) : Bool := !"=,[]\x7b\x7d \t#\r\n".toList.contains c

/-- An unquoted value: a word, and further ones that only blanks separate from it. -/
def scanWords (cs : List Char) : List Char × List Char :=
  let (word, rest) := cs.span isWord
  let (blanks, next) := rest.span isSpace
  if !blanks.isEmpty && (next.head?.any fun c => isWord c && c != '"' && c != singleQuote) then
    if next.length < cs.length then
      let (words, rest) := scanWords next
      (word ++ blanks ++ words, rest)
    else (word, rest)
  else (word, rest)
termination_by cs.length

def word? (cs : List Char) : Option Toml :=
  if cs == "true".toList then some (.boolean true)
  else if cs == "false".toList then some (.boolean false)
  else if isInstant cs then some (.instant (.ofList cs))
  else number? cs

def scanScalar (cs : List Char) : Option (Toml × List Char) :=
  match cs.head? with
  | some '"' | some '\x27' => (scanText cs).map fun (s, rest) => (.text s, rest)
  | _ =>
    let (words, rest) := scanWords cs
    (word? words).map (·, rest)

def scanItems (scanValue : List Char → Option (Toml × List Char)) (cs : List Char) :
    Option (List Toml × List Char) :=
  match skipFiller false cs with
  | ']' :: r => some ([], r)
  | front => do
    let (v, r) ← scanValue front
    match skipFiller false r with
    | ']' :: r => return ([v], r)
    | ',' :: r =>
      if r.length < cs.length then
        let (vs, rest) ← scanItems scanValue r
        return (v :: vs, rest)
      else none
    | _ => none
termination_by cs.length

def scanPair (skip : List Char → List Char) (scanValue : List Char → Option (Toml × List Char)) (cs : List Char) :
    Option ((List String × String × Toml) × List Char) := do
  let (path, key, r) ← scanPath cs
  match skip r with
  | '=' :: r =>
    let (v, rest) ← scanValue (skip r)
    return ((path, key, v), rest)
  | _ => none

def scanMembers (scanValue : List Char → Option (Toml × List Char)) (members : Members) (cs : List Char) :
    Option (Members × List Char) :=
  match skipFiller false cs with
  | '\x7d' :: r => some (members, r)
  | front => do
    let ((path, key, v), r) ← scanPair (skipFiller false) scanValue front
    let members ← addMember path key v .braces members
    match skipFiller false r with
    | '\x7d' :: r => return (members, r)
    | ',' :: r => if r.length < cs.length then scanMembers scanValue members r else none
    | _ => none
termination_by cs.length

def scanValue : Nat → List Char → Option (Toml × List Char)
  | depth + 1, '[' :: r => (scanItems (scanValue depth) r).map fun (items, rest) => (.array items, rest)
  | depth + 1, '\x7b' :: r => (scanMembers (scanValue depth) [] r).map fun (ms, rest) => (.table .braces ms, rest)
  | _, cs => scanScalar cs

def depthLimit : Nat := 80

def scanHeader (d : Document) (element : Bool) (cs : List Char) : Option (Document × List Char) := do
  let (path, key, r) ← scanPath cs
  match element, r with
  | false, ']' :: rest => return (← d.enter false path key, rest)
  | true, ']' :: ']' :: rest => return (← d.enter true path key, rest)
  | _, _ => none

def scanLine (d : Document) : List Char → Option (Document × List Char)
  | '[' :: '[' :: r => scanHeader d true r
  | '[' :: r => scanHeader d false r
  | cs => do
    let ((path, key, v), rest) ← scanPair (·.dropWhile isSpace) (scanValue depthLimit) cs
    return (← d.add path key v, rest)

def scanLines (d : Document) (cs : List Char) : Option Document :=
  match skipFiller false cs with
  | [] => some d
  | front => do
    let (d, rest) ← scanLine d front
    if !endsLine rest then none
    else if rest.length < cs.length then scanLines d rest
    else none
termination_by cs.length

def parse? (s : String) : Option Members :=
  let cs := s.toList
  (scanLines .empty (if cs.head? == some '\uFEFF' then cs.tail else cs)).map (·.root)

end FilterConsole.Toml
